/-!
# Packed payloads

The arguments of a case travel as one tuple. A tuple has seven slots, and what does not fit goes
into a further tuple in the slot `Rest`. The same nesting is written three times: as a type, as the
expression that builds it, and as the path that leads to one item.
-/

namespace CaseUnion

/-- A list as a nested tuple: items and, where more follow, the rest. -/
inductive Packed (α : Type) where
  | last (items : List α)
  | more (items : List α) (rest : Packed α)
  deriving Repr

namespace Packed

def slots : Nat := 7

def ofList {α : Type} (xs : List α) : Packed α :=
  if xs.length ≤ slots then last xs
  else more (xs.take slots) (ofList (xs.drop slots))
termination_by xs.length
decreasing_by
  simp only [List.length_drop, slots] at *
  omega

def toList {α : Type} : Packed α → List α
  | last items => items
  | more items rest => items ++ rest.toList

def typeText : Packed String → String
  | last types => "System.ValueTuple<" ++ ", ".intercalate types ++ ">"
  | more types rest =>
    "System.ValueTuple<" ++ ", ".intercalate types ++ ", " ++ rest.typeText ++ ">"

def map {α β : Type} (f : α → β) : Packed α → Packed β
  | last items => last (items.map f)
  | more items rest => more (items.map f) (rest.map f)

/-- The expression that packs values; items are pairs of an expression and its type. -/
def valueText : Packed (String × String) → String
  | last items => "System.ValueTuple.Create(" ++ ", ".intercalate (items.map (·.1)) ++ ")"
  | more items rest =>
    "new " ++ ((more items rest).map (·.2)).typeText ++ "(" ++
      ", ".intercalate (items.map (·.1)) ++ ", " ++ rest.valueText ++ ")"

end Packed

/-- The way to one item of a packed payload: steps into the rest, then a slot counted from one. -/
structure ItemPath where
  steps : Nat
  slot : Nat
  deriving DecidableEq, Repr

namespace ItemPath

def ofPosition (i : Nat) : ItemPath := ⟨i / Packed.slots, i % Packed.slots + 1⟩

def follow? {α : Type} : Nat → Nat → Packed α → Option α
  | 0, slot, .last items => items[slot - 1]?
  | 0, slot, .more items _ => items[slot - 1]?
  | _ + 1, _, .last _ => none
  | steps + 1, slot, .more _ rest => follow? steps slot rest

/-- The expression that reads the item out of the variable `data`. -/
def text (p : ItemPath) : String :=
  "data" ++ String.join (List.replicate p.steps ".Rest") ++ s!".Item{p.slot}"

end ItemPath
end CaseUnion
