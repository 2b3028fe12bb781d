/-!
# Laying out code

Generated code is a tree of lines, blank lines, braced blocks and indented runs. A printer keeps a
text and an indentation level; printing a tree appends to the text and leaves the level as it was.
-/

namespace CaseUnion

inductive Node where
  | line (text : String)
  | blank
  /-- A header, if it is not empty, and a body between braces on lines of their own. -/
  | block (header : String) (body : List Node)
  /-- A body one level deeper without braces. -/
  | indented (body : List Node)
  deriving Repr

namespace Node

def scope (body : List Node) : Node := block "" body

end Node

structure Printer where
  text : String := ""
  level : Nat := 0
  width : Nat
  deriving Repr

namespace Printer

/-- The deepest level that is still printed deeper than the one before. -/
def maxDepth : Nat := 50

def indent (p : Printer) : Printer := { p with level := p.level + 1 }

def dedent (p : Printer) : Printer := { p with level := p.level - 1 }

def depth (p : Printer) : Nat := min p.level maxDepth

/-- A line at a depth, as text. -/
def lineText (depth width : Nat) (text : String) : String :=
  String.ofList (List.replicate (depth * width) ' ') ++ text ++ "\n"

def line (p : Printer) (text : String) : Printer :=
  { p with text := p.text ++ lineText p.depth p.width text }

def blank (p : Printer) : Printer := { p with text := p.text ++ "\n" }

def openBlock (p : Printer) : Printer := (p.line "\x7b").indent

def closeBlock (p : Printer) : Printer := p.dedent.line "\x7d"

mutual

def write (p : Printer) : Node → Printer
  | .line text => p.line text
  | .blank => p.blank
  | .block header body =>
    let headed := if header.isEmpty then p else p.line header
    (headed.openBlock.writeAll body).closeBlock
  | .indented body => (p.indent.writeAll body).dedent

def writeAll (p : Printer) : List Node → Printer
  | [] => p
  | node :: rest => (p.write node).writeAll rest

end

end Printer

/-- The text of nodes at the outermost level. -/
def Node.print (nodes : List Node) (width : Nat) : String :=
  (Printer.writeAll { width } nodes).text

end CaseUnion
