import CaseUnion.Datum.Toml
import CaseUnion.Datum.Yaml
import CaseUnion.Document.Fields
import CaseUnion.Path

/-!
# Document formats

The format of a document follows from the extension of its path. What a document is read from and
what it is written as differ between the formats; the data in between does not.
-/

namespace CaseUnion

namespace Format

def ofExtension? : String → Option Format
  | "toml" => some toml
  | "json" => some json
  | "yaml" => some yaml
  | "yml" => some yaml
  | _ => none

def ofPath? (path : String) : Option Format := (Path.extension? path).bind ofExtension?

def name : Format → String
  | toml => "TOML"
  | json => "JSON"
  | yaml => "YAML"

def parse? : Format → String → Option Datum
  | toml => Toml.parse?
  | json => Json.parse?
  | yaml => Yaml.parse?

def render : Format → Datum → String
  | toml => Toml.render
  | json => Json.pretty
  | yaml => Yaml.render

end Format

namespace Document

def parse (path text : String) : Except Failure Document :=
  match Format.ofPath? path with
  | none => .error (.of (.unsupportedFormat path))
  | some format =>
    match format.parse? text with
    | none => .error (.of (.malformedDocument path (Fault.unreadable format.name).message))
    | some data =>
      match data.asDocument path (.ofFormat format) with
      | .ok d => .ok d
      | .error fault => .error (.of (.malformedDocument path fault.message))

def render (d : Document) : Except Failure String :=
  match Format.ofPath? d.path with
  | none => .error (.of (.unsupportedFormat d.path))
  | some format => .ok (format.render (Datum.ofDocument d))

def same (a b : Document) : Bool :=
  a.path == b.path && Json.pretty (Datum.ofDocument a) == Json.pretty (Datum.ofDocument b)

/-- Whether reading the rendered text gives the document back. -/
def roundTrips (d : Document) : Bool :=
  match d.render with
  | .error _ => false
  | .ok text =>
    match parse d.path text with
    | .error _ => false
    | .ok read => d.same read

end Document
end CaseUnion
