import CaseUnion.Layout

/-!
# Printed lines

The code of a tree is a list of lines, each with its depth of nesting (`Node.lines`). A line is
indented by its depth, up to a deepest one, and has no effect on other lines (`CodeLine.print`).

The printer keeps a level instead. It appends the lines that the tree has at this level, and leaves
the level as it was (`write_eq`, `writeAll_eq`). So blocks inside each other open line by line on the
way in, and close on the way out in reverse (`allLines_foldr_block`).
-/

namespace CaseUnion

/-- A blank line, or a line of code at a depth of nesting. -/
inductive CodeLine where
  | blank
  | code (depth : Nat) (text : String)
  deriving DecidableEq, Repr

namespace CodeLine

/-- The line as text. Below the fiftieth level nothing is indented further. -/
def print (width : Nat) : CodeLine → String
  | blank => "\n"
  | code depth text => String.ofList (List.replicate (min depth 50 * width) ' ') ++ text ++ "\n"

def printAll (width : Nat) (lines : List CodeLine) : String := String.join (lines.map (print width))

theorem printAll_append (width : Nat) (lines more : List CodeLine) :
    printAll width (lines ++ more) = printAll width lines ++ printAll width more := by
  rw [printAll, List.map_append, String.join_append]
  rfl

theorem printAll_singleton (width : Nat) (line : CodeLine) :
    printAll width [line] = line.print width := by
  rw [printAll, List.map_singleton, String.join_cons, String.join_nil, String.append_empty]

/-- The lines that open blocks inside each other, outermost first. -/
def openings (depth : Nat) (headers : List String) : List CodeLine :=
  (headers.zipIdx depth).flatMap fun (header, i) => [code i header, code i "\x7b"]

/-- The lines that close as many blocks, innermost first. -/
def closings (depth count : Nat) : List CodeLine :=
  (List.range' depth count).reverse.map (code · "\x7d")

theorem openings_cons (depth : Nat) (header : String) (rest : List String) :
    openings depth (header :: rest) =
      code depth header :: code depth "\x7b" :: openings (depth + 1) rest := by
  rw [openings, List.zipIdx_cons, List.flatMap_cons]
  rfl

theorem closings_succ (depth count : Nat) :
    closings depth (count + 1) = closings (depth + 1) count ++ [code depth "\x7d"] := by
  rw [closings, List.range'_succ, List.reverse_cons, List.map_append]
  rfl

end CodeLine

namespace Node

mutual

/-- The lines of a tree at a depth. -/
def lines (depth : Nat) : Node → List CodeLine
  | .line text => [.code depth text]
  | .blank => [.blank]
  | .block header body =>
    (if header.isEmpty then [] else [.code depth header]) ++ .code depth "\x7b" ::
      allLines (depth + 1) body ++ [.code depth "\x7d"]
  | .indented body => allLines (depth + 1) body

def allLines (depth : Nat) : List Node → List CodeLine
  | [] => []
  | node :: rest => node.lines depth ++ allLines depth rest

end

theorem allLines_append (depth : Nat) (nodes more : List Node) :
    allLines depth (nodes ++ more) = allLines depth nodes ++ allLines depth more := by
  induction nodes with
  | nil => rw [allLines, List.nil_append, List.nil_append]
  | cons node rest ih => rw [List.cons_append, allLines, allLines, ih, List.append_assoc]

theorem allLines_singleton (depth : Nat) (node : Node) :
    allLines depth [node] = node.lines depth := by
  rw [allLines, allLines, List.append_nil]

/-- Blocks with nothing but each other inside, down to a body. -/
theorem allLines_foldr_block {headers : List String} (h : ∀ header ∈ headers, header ≠ "")
    (body : List Node) (depth : Nat) :
    allLines depth (headers.foldr (fun header inner => [.block header inner]) body) =
      CodeLine.openings depth headers ++ allLines (depth + headers.length) body ++
        CodeLine.closings depth headers.length := by
  induction headers generalizing depth with
  | nil => simp [CodeLine.openings, CodeLine.closings]
  | cons header rest ih =>
    obtain ⟨hheader, hrest⟩ := List.forall_mem_cons.1 h
    rw [List.foldr_cons, allLines_singleton, lines, if_neg (by simpa using hheader), ih hrest,
      CodeLine.openings_cons, List.length_cons, CodeLine.closings_succ, Nat.add_right_comm depth 1]
    simp only [List.nil_append, List.cons_append, List.append_assoc, Nat.add_assoc]

end Node

namespace Printer

/-- The printer after more lines. -/
def append (p : Printer) (lines : List CodeLine) : Printer :=
  { p with text := p.text ++ CodeLine.printAll p.width lines }

variable (p : Printer)

theorem append_append (lines more : List CodeLine) :
    (p.append lines).append more = p.append (lines ++ more) := by
  rw [append, append, append, CodeLine.printAll_append, String.append_assoc]

theorem append_nil : p.append [] = p := by
  rw [append, CodeLine.printAll, List.map_nil, String.join_nil, String.append_empty]

theorem line_eq (text : String) : p.line text = p.append [.code p.level text] := by
  rw [append, CodeLine.printAll_singleton]
  rfl

theorem blank_eq : p.blank = p.append [.blank] := by
  rw [append, CodeLine.printAll_singleton]
  rfl

mutual

/-- The printer appends the lines that a tree has at its level, and keeps the level. -/
theorem write_eq : ∀ (p : Printer) (node : Node), p.write node = p.append (node.lines p.level)
  | p, .line text => by rw [write, Node.lines, line_eq]
  | p, .blank => by rw [write, Node.lines, blank_eq]
  | p, .block header body => by
    have hheaded : (if header.isEmpty then p else p.line header) =
        p.append (if header.isEmpty then [] else [.code p.level header]) := by
      split
      · rw [append_nil]
      · rw [line_eq]
    rw [write, hheaded, openBlock, line_eq, writeAll_eq, closeBlock, line_eq]
    -- the level is one more inside the braces only, and appending lines does not read it
    change ((((p.append _).append [.code p.level "\x7b"]).append
      (Node.allLines (p.level + 1) body)).append [.code p.level "\x7d"]) = _
    rw [append_append, append_append, append_append, Node.lines, List.append_assoc]
    rfl
  | p, .indented body => by
    rw [write, writeAll_eq, Node.lines]
    rfl

theorem writeAll_eq : ∀ (p : Printer) (nodes : List Node),
    p.writeAll nodes = p.append (Node.allLines p.level nodes)
  | p, [] => by rw [writeAll, Node.allLines, append_nil]
  | p, node :: rest => by
    rw [writeAll, write_eq, writeAll_eq, Node.allLines, ← append_append]
    rfl

end

end Printer

theorem Node.print_eq (nodes : List Node) (width : Nat) :
    Node.print nodes width = CodeLine.printAll width (Node.allLines 0 nodes) := by
  rw [Node.print, Printer.writeAll_eq]
  exact String.empty_append

end CaseUnion
