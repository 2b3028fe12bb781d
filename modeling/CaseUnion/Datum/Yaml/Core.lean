import CaseUnion.Datum.Words
import CaseUnion.Datum.Yaml.Document

/-!
# The core types of YAML 1.2

Data of YAML 1.2 with the types of its words decided. Integers have 64 bits and a sign. Names are
texts, or scalars that are shown as texts; a table does not have one twice.
-/

namespace CaseUnion.Yaml

def coreInteger? (base : Nat) (cs : List Char) : Option Int :=
  let (isNegative, digits) := Datum.signed cs
  let value := (Datum.digitsIn? base digits).map fun n => if isNegative then -(n : Int) else n
  value.filter fun n => decide (IsSigned64 n)

/-- The integer that a word stands for. A plus sign may stand in front of another sign. -/
def coreWordInteger? (word : String) : Option Int :=
  match word.toList with
  | '0' :: 'x' :: digits => coreInteger? 16 digits
  | '0' :: 'o' :: digits => coreInteger? 8 digits
  | '+' :: number => coreInteger? 10 number
  | number => coreInteger? 10 number

def coreFloat? (word : String) : Option Decimal.Binary64 :=
  let (isNegative, number) := Datum.signed word.toList
  Datum.decimal? isNegative number

/-- The words for infinity and for no number. They are known and have no value. -/
def isSpecialFloat (word : String) : Bool :=
  let infinities := [".inf", ".Inf", ".INF"]
  let unsigned := String.ofList (Datum.signed word.toList).2
  infinities.contains unsigned || [".nan", ".NaN", ".NAN"].contains word

def coreWord? (word : String) : Option Datum :=
  if ["", "~", "null"].contains word then some .null
  else if word = "true" then some (.bool true)
  else if word = "false" then some (.bool false)
  else if isSpecialFloat word then none
  else
    match coreWordInteger? word with
    | some n => some (.int n)
    | none =>
      match coreFloat? word with
      | some x => some (.float x)
      | none => some (.text word)

/-- The name that a scalar stands for, and whether it is a text from the outset. -/
def coreName? : Datum → Option (String × Bool)
  | .text name => some (name, true)
  | .plain word =>
    if isSpecialFloat word then some (word, false)
    else
      match coreWord? word with
      | some (.text name) => some (name, true)
      | some (.int n) => some (toString n, false)
      | some (.bool _) | some (.float _) => some (word, false)
      | _ => none
  | _ => none

mutual

def core? : Datum → Option Datum
  | .plain word => coreWord? word
  | .list items => (coreItems? items).map .list
  | .mapping entries => do
    let names ← entries.mapM (coreName? ·.1)
    if names.eraseDups.length = names.length then
      return .table ((names.map (·.1)).zip (← coreValues? entries))
    else none
  | .skippable => some .null
  | d => some d

def coreItems? : List Datum → Option (List Datum)
  | [] => some []
  | d :: rest => do return (← core? d) :: (← coreItems? rest)

def coreValues? : List (Datum × Datum) → Option (List Datum)
  | [] => some []
  | (_, d) :: rest => do return (← core? d) :: (← coreValues? rest)

end

end CaseUnion.Yaml
