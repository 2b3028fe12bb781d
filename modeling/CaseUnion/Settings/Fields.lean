import CaseUnion.Datum.Fields
import CaseUnion.Settings

/-!
# Settings as data

Settings are read from data in one of two ways. The strict way wants every scalar in its own type.
The lenient way makes texts, numbers and truth values into each other where a meaning is plain.
Most settings have two spellings, of which at most one may be used.
-/

namespace CaseUnion

structure ScalarReader where
  text : Datum → Except Fault String
  natural : Datum → Except Fault Nat
  flag : Datum → Except Fault Bool
  conventions : Conventions

namespace ScalarReader

def asNatural : Datum → Except Fault Nat
  | .int n => if IsUnsigned64 n then .ok n.toNat else .error (.mismatch "a natural number")
  | _ => .error (.mismatch "a natural number")

def asFlag : Datum → Except Fault Bool
  | .bool value => .ok value
  | _ => .error (.mismatch "a truth value")

def strict : ScalarReader := ⟨Datum.asText, asNatural, asFlag, .json⟩

/-- The text that a scalar is shown as. -/
def toText : Datum → Except Fault String
  | .text value => .ok value
  | .bool value => .ok (if value then "true" else "false")
  | .int value => .ok (toString value)
  | .float value => .ok value.text
  | _ => .error (.mismatch "a scalar")

def trueWords : List String := ["true", "on", "yes"]

def falseWords : List String := ["false", "off", "no"]

/-- A word for a truth value, or decimal digits. -/
def wordNatural? (word : String) : Option Nat :=
  let lower := word.toLower
  if trueWords.contains lower then some 1
  else if falseWords.contains lower then some 0
  else
    let digits :=
      match word.toList with
      | '+' :: rest => rest
      | cs => cs
    match Datum.digitsIn? 10 digits with
    | some n => if IsUnsigned64 n then some n else none
    | none => none

def toNatural : Datum → Except Fault Nat
  | .int n => asNatural (.int n)
  | .bool value => .ok value.toNat
  | .float value => .ok value.roundToUnsigned
  | .text word =>
    match wordNatural? word with
    | some n => .ok n
    | none => .error (.mismatch "a natural number")
  | _ => .error (.mismatch "a natural number")

def toFlag : Datum → Except Fault Bool
  | .bool value => .ok value
  | .int n => .ok (n != 0)
  | .float value => .ok !value.isZero
  | .text word =>
    let lower := word.toLower
    if lower = "1" || trueWords.contains lower then .ok true
    else if lower = "0" || falseWords.contains lower then .ok false
    else .error (.mismatch "a truth value")
  | _ => .error (.mismatch "a truth value")

def lenient : ScalarReader := ⟨toText, toNatural, toFlag, .toml⟩

/-- The fields of a record. Each has a name and possibly another spelling of it. -/
def record (r : ScalarReader) (names : List (String × Option String)) (d : Datum) :
    Except Fault Fields :=
  let rename (name : String) : String :=
    ((names.find? fun (_, other) => other == some name).map (·.1)).getD name
  let known := names.map (·.1)
  match d with
  | .table entries =>
    (Datum.table (entries.map fun (name, v) => (rename name, v))).fields r.conventions known
  | d => d.fields r.conventions known

def texts (r : ScalarReader) : Datum → Except Fault (List String)
  | .list items => items.mapM r.text
  | _ => .error (.mismatch "a list")

end ScalarReader

namespace Settings

def readSources (r : ScalarReader) (d : Datum) : Except Fault SourcePatterns := do
  let f ← r.record [("include", none), ("exclude", none)] d
  return ⟨← f.withDefault "include" [] r.texts, ← f.withDefault "exclude" [] r.texts⟩

def readDiagnosticId (r : ScalarReader) (d : Datum) : Except Fault String := do
  let f ← r.record [("diagnostic-id", some "diagnostic_id")] d
  f.withDefault "diagnostic-id" ({} : Settings).diagnosticId r.text

/-- Reads settings from data; what is not written has its default. -/
def ofDatum (r : ScalarReader) (d : Datum) : Except Fault Settings := do
  let f ← r.record
    [("marker", none), ("case-list", some "case_list"),
      ("generated-suffix", some "generated_suffix"), ("indent-width", some "indent_width"),
      ("output-dir", some "output_dir"), ("mem", none), ("sources", none), ("assist", none)] d
  let default : Settings := {}
  return {
    marker := ← f.withDefault "marker" default.marker r.text
    caseList := ← f.withDefault "case-list" default.caseList r.text
    generatedSuffix := ← f.withDefault "generated-suffix" default.generatedSuffix r.text
    indentWidth := ← f.withDefault "indent-width" default.indentWidth r.natural
    outputDir := ← f.withDefault "output-dir" default.outputDir r.text
    inMemory := ← f.withDefault "mem" default.inMemory r.flag
    sources := ← f.withDefault "sources" default.sources (readSources r)
    diagnosticId := ← f.withDefault "assist" default.diagnosticId (readDiagnosticId r) }

def datum (s : Settings) : Datum :=
  .table [("marker", .text s.marker), ("case-list", .text s.caseList),
    ("generated-suffix", .text s.generatedSuffix), ("indent-width", .int s.indentWidth),
    ("output-dir", .text s.outputDir), ("mem", .bool s.inMemory),
    ("sources", .table [("include", .list (s.sources.includes.map .text)),
      ("exclude", .list (s.sources.excludes.map .text))]),
    ("assist", .table [("diagnostic-id", .text s.diagnosticId)])]

end Settings
end CaseUnion
