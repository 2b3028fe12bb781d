import CaseUnion.Decimal.Shortest
import CaseUnion.Failure
import CaseUnion.Text.Quoted
import CaseUnion.UnionType

/-!
# Values of unions

A union value has the tag of its case and, if the case has parameters, their arguments. Values are
made by `Shape.construct` only, and taken apart by dispatch over the tag.
-/

namespace CaseUnion

/-- What a value knows of its union: the name, and the names and arities of its cases. -/
structure Shape where
  name : String
  cases : List (String × Nat)
  deriving DecidableEq, Repr, Inhabited

mutual

inductive Value where
  | bool (value : Bool)
  | int (value : Int)
  | double (value : Decimal.Binary64)
  | text (value : String)
  | tuple (items : List Value)
  | union (value : UnionValue)

/-- The payload of a nullary case is `none`. -/
structure UnionValue where
  shape : Shape
  tag : Nat
  payload : Option (List Value)

end

deriving instance Repr for Value, UnionValue

inductive HashPiece where
  /-- Which kind of value, or whether there is a payload. -/
  | kind (index : Nat)
  | length (count : Nat)
  | tag (index : Nat)
  | bool (value : Bool)
  | int (value : Int)
  | bits (value : UInt64)
  | text (value : String)
  deriving DecidableEq, Repr

mutual

/-- Equality of values: doubles by their bits, so that it is reflexive, and unions by name, tag and
payload. -/
def Value.same : Value → Value → Bool
  | .bool a, .bool b => a == b
  | .int a, .int b => a == b
  | .double a, .double b => a == b
  | .text a, .text b => a == b
  | .tuple as, .tuple bs => Value.sameAll as bs
  | .union a, .union b => a.same b
  | _, _ => false

def UnionValue.same : UnionValue → UnionValue → Bool
  | ⟨shape₁, tag₁, payload₁⟩, ⟨shape₂, tag₂, payload₂⟩ =>
    shape₁.name == shape₂.name && tag₁ == tag₂ &&
      match payload₁, payload₂ with
      | none, none => true
      | some as, some bs => Value.sameAll as bs
      | _, _ => false

def Value.sameAll : List Value → List Value → Bool
  | [], [] => true
  | a :: as, b :: bs => a.same b && Value.sameAll as bs
  | _, _ => false

end

mutual

def Value.hashPieces : Value → List HashPiece
  | .bool value => [.kind 0, .bool value]
  | .int value => [.kind 1, .int value]
  | .double value => [.kind 2, .bits value.bits]
  | .text value => [.kind 3, .text value]
  | .tuple items => .kind 4 :: .length items.length :: Value.hashPiecesAll items
  | .union value => .kind 5 :: value.hashPieces

def UnionValue.hashPieces : UnionValue → List HashPiece
  | ⟨shape, tag, none⟩ => [.text shape.name, .tag tag, .kind 0]
  | ⟨shape, tag, some items⟩ =>
    .text shape.name :: .tag tag :: .kind 1 :: .length items.length :: Value.hashPiecesAll items

def Value.hashPiecesAll : List Value → List HashPiece
  | [] => []
  | v :: rest => v.hashPieces ++ Value.hashPiecesAll rest

end

namespace Shape

def ofUnion (u : UnionType) : Shape := ⟨u.qualified, u.cases.map fun c => (c.name, c.arity)⟩

def position? (s : Shape) (caseName : String) : Option Nat :=
  s.cases.findIdx? (·.1 == caseName)

def arity (s : Shape) (tag : Nat) : Nat := (s.cases[tag]?.map (·.2)).getD 0

def caseName (s : Shape) (tag : Nat) : String := (s.cases[tag]?.map (·.1)).getD ""

def construct (s : Shape) (caseName : String) (arguments : List Value) :
    Except Failure UnionValue :=
  match s.position? caseName with
  | none => .error (.of (.unknownCase s.name caseName))
  | some tag =>
    if arguments.length = s.arity tag then
      .ok ⟨s, tag, if s.arity tag = 0 then none else some arguments⟩
    else .error (.of (.arityMismatch s.name caseName (s.arity tag) arguments.length))

/-- The one value of a case without parameters. -/
def singleton (s : Shape) (caseName : String) : Except Failure UnionValue :=
  s.construct caseName []

end Shape

mutual

def Value.show : Value → String
  | .bool value => if value then "true" else "false"
  | .int value => toString value
  | .double value => value.text
  | .text value => Text.quoted value
  | .tuple items => "(" ++ ", ".intercalate (Value.showAll items) ++ ")"
  | .union value => value.show

def UnionValue.show : UnionValue → String
  | ⟨shape, tag, none⟩ => s!"{shape.name}.{shape.caseName tag}"
  | ⟨shape, tag, some items⟩ =>
    s!"{shape.name}.{shape.caseName tag}(" ++ ", ".intercalate (Value.showAll items) ++ ")"

def Value.showAll : List Value → List String
  | [] => []
  | v :: rest => v.show :: Value.showAll rest

end

namespace UnionValue

def caseName (v : UnionValue) : String := v.shape.caseName v.tag

def arguments (v : UnionValue) : List Value := v.payload.getD []

end UnionValue

/-- A dispatch over a value while its handlers are registered. The first wrong registration is kept
and everything after it is ignored. -/
structure Dispatch (ρ : Type) where
  value : UnionValue
  /-- Handlers by tag, in the order of registration. -/
  handlers : List (Nat × (List Value → ρ))
  problem : Option Cause

namespace Dispatch

variable {ρ : Type}

def begin (v : UnionValue) : Dispatch ρ := ⟨v, [], none⟩

def handler? (d : Dispatch ρ) (tag : Nat) : Option (List Value → ρ) :=
  (d.handlers.find? (·.1 == tag)).map (·.2)

def on (d : Dispatch ρ) (caseName : String) (handler : List Value → ρ) : Dispatch ρ :=
  match d.problem with
  | some _ => d
  | none =>
    match d.value.shape.position? caseName with
    | none => { d with problem := some (.unknownCase d.value.shape.name caseName) }
    | some tag =>
      if (d.handler? tag).isSome then
        { d with problem := some (.duplicateHandler d.value.shape.name caseName) }
      else { d with handlers := d.handlers ++ [(tag, handler)] }

/-- The names of the cases without a handler, in declared order. -/
def missing (d : Dispatch ρ) : List String :=
  (d.value.shape.cases.zipIdx.filter fun (_, tag) => (d.handler? tag).isNone).map (·.1.1)

section
variable {m : Type → Type} [Monad m]

/-- Dispatches over all cases with handlers that act: every case needs one. -/
def perform (d : Dispatch (m ρ)) : m (Except Failure ρ) := do
  match d.problem with
  | some cause => return .error (.of cause)
  | none =>
    if d.missing.isEmpty then
      match d.handler? d.value.tag with
      | some handler => return .ok (← handler d.value.arguments)
      | none => return .error (.of (.unreachable "dispatch without handler"))
    else return .error (.of (.missingHandlers d.value.shape.name d.missing))

/-- Dispatches with a default, which acts too, for the cases without a handler. -/
def performWithDefault (d : Dispatch (m ρ)) (default : m ρ) : m (Except Failure ρ) := do
  match d.problem with
  | some cause => return .error (.of cause)
  | none =>
    if d.value.shape.cases.length ≤ 1 then
      return .error (.of (.defaultUnavailable d.value.shape.name))
    else
      match d.handler? d.value.tag with
      | some handler => return .ok (← handler d.value.arguments)
      | none => return .ok (← default)

end

/-- Dispatches over all cases with handlers that just have a result. -/
def run (d : Dispatch ρ) : Except Failure ρ := Id.run (perform d)

def runWithDefault (d : Dispatch ρ) (default : ρ) : Except Failure ρ :=
  Id.run (performWithDefault d default)

theorem run_eq (d : Dispatch ρ) : d.run =
    match d.problem with
    | some cause => .error (.of cause)
    | none =>
      if d.missing.isEmpty then
        match d.handler? d.value.tag with
        | some handler => .ok (handler d.value.arguments)
        | none => .error (.of (.unreachable "dispatch without handler"))
      else .error (.of (.missingHandlers d.value.shape.name d.missing)) := by
  rw [run, perform]
  cases d.problem <;> cases d.missing.isEmpty <;> cases d.handler? d.value.tag <;> rfl

theorem runWithDefault_eq (d : Dispatch ρ) (default : ρ) : d.runWithDefault default =
    match d.problem with
    | some cause => .error (.of cause)
    | none =>
      if d.value.shape.cases.length ≤ 1 then .error (.of (.defaultUnavailable d.value.shape.name))
      else
        match d.handler? d.value.tag with
        | some handler => .ok (handler d.value.arguments)
        | none => .ok default := by
  rw [runWithDefault, performWithDefault]
  cases d.problem with
  | some cause => rfl
  | none =>
    by_cases hfew : d.value.shape.cases.length ≤ 1
    · simp only [if_pos hfew]
      rfl
    · simp only [if_neg hfew]
      cases d.handler? d.value.tag <;> rfl

end Dispatch
end CaseUnion
