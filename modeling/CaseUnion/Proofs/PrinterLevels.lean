import CaseUnion.Proofs.PrintedLines

/-!
# Levels of the printer

The lines of a tree have depths of their own, counted from its outermost nodes. A printer that
starts at a level prints the same lines with the level added to each depth (`allLines_eq_deeper`),
and is at its level again afterwards, so what was printed has no effect on the lines that follow.

A level that is kept in a word has a greatest value, at which indenting stops; leaving such a level
would lead too far out. A tree reaches no level above the sum of the level at its start and its
nesting (`writeUpTo_eq`), so a printer with a word prints it in the same way if this sum fits:
`printing_realises_layout`.
-/

namespace CaseUnion

/-- The line with all depths counted from further out. -/
def CodeLine.deeper (level : Nat) : CodeLine → CodeLine
  | blank => blank
  | code depth text => code (level + depth) text

namespace Node

mutual

/-- How many levels a tree has below its own. -/
def nesting : Node → Nat
  | .line _ => 0
  | .blank => 0
  | .block _ body => allNesting body + 1
  | .indented body => allNesting body + 1

def allNesting : List Node → Nat
  | [] => 0
  | node :: rest => max node.nesting (allNesting rest)

end

mutual

theorem lines_add (level : Nat) : ∀ (depth : Nat) (node : Node),
    node.lines (level + depth) = (node.lines depth).map (CodeLine.deeper level)
  | depth, .line text => rfl
  | depth, .blank => rfl
  | depth, .block header body => by
    have hbody := allLines_add level (depth + 1) body
    have hheader : (if header.isEmpty then [] else [CodeLine.code (level + depth) header]) =
        (if header.isEmpty then [] else [CodeLine.code depth header]).map
          (CodeLine.deeper level) := by
      split <;> rfl
    rw [lines, lines, hheader, Nat.add_assoc, hbody]
    simp only [List.map_append, List.map_cons, List.map_nil]
    rfl
  | depth, .indented body => allLines_add level (depth + 1) body

theorem allLines_add (level : Nat) : ∀ (depth : Nat) (nodes : List Node),
    allLines (level + depth) nodes = (allLines depth nodes).map (CodeLine.deeper level)
  | _, [] => rfl
  | depth, node :: rest => by
    rw [allLines, allLines, lines_add level depth node, allLines_add level depth rest,
      List.map_append]

end

theorem allLines_eq_deeper (level : Nat) (nodes : List Node) :
    allLines level nodes = (allLines 0 nodes).map (CodeLine.deeper level) :=
  allLines_add level 0 nodes

end Node

namespace Printer

/-- One level deeper, as far as there are levels. -/
def indentUpTo (limit : Nat) (p : Printer) : Printer := { p with level := min (p.level + 1) limit }

mutual

/-- Prints a tree with a level that stops at a limit. -/
def writeUpTo (limit : Nat) (p : Printer) : Node → Printer
  | .line text => p.line text
  | .blank => p.blank
  | .block header body =>
    let headed := if header.isEmpty then p else p.line header
    (((headed.line "\x7b").indentUpTo limit).writeAllUpTo limit body).closeBlock
  | .indented body => ((p.indentUpTo limit).writeAllUpTo limit body).dedent

def writeAllUpTo (limit : Nat) (p : Printer) : List Node → Printer
  | [] => p
  | node :: rest => (p.writeUpTo limit node).writeAllUpTo limit rest

end

theorem indentUpTo_of_lt {limit : Nat} {p : Printer} (h : p.level < limit) :
    p.indentUpTo limit = p.indent := by
  rw [indentUpTo, Nat.min_eq_left h]
  rfl

theorem level_write (p : Printer) (node : Node) : (p.write node).level = p.level := by
  rw [write_eq]
  rfl

mutual

/-- The limit has no effect on a tree that does not nest beyond it. -/
theorem writeUpTo_eq {limit : Nat} : ∀ {p : Printer} {node : Node},
    p.level + node.nesting ≤ limit → p.writeUpTo limit node = p.write node
  | _, .line _, _ => rfl
  | _, .blank, _ => rfl
  | p, .block header body, h => by
    rw [Node.nesting] at h
    have hlevel : ((if header.isEmpty then p else p.line header).line "\x7b").level = p.level := by
      split <;> rfl
    rw [writeUpTo, write, indentUpTo_of_lt (by omega), openBlock, writeAllUpTo_eq]
    change ((if header.isEmpty then p else p.line header).line "\x7b").level + 1 + _ ≤ limit
    omega
  | p, .indented body, h => by
    rw [Node.nesting] at h
    rw [writeUpTo, write, indentUpTo_of_lt (by omega), writeAllUpTo_eq]
    change p.level + 1 + _ ≤ limit
    omega

theorem writeAllUpTo_eq {limit : Nat} : ∀ {p : Printer} {nodes : List Node},
    p.level + Node.allNesting nodes ≤ limit → p.writeAllUpTo limit nodes = p.writeAll nodes
  | _, [], _ => rfl
  | p, node :: rest, h => by
    rw [Node.allNesting] at h
    rw [writeAllUpTo, writeAll, writeUpTo_eq (by omega), writeAllUpTo_eq]
    rw [level_write]
    omega

end

/-- A level that stops too early is left too early. -/
example : (writeAllUpTo 1 { width := 1 } [.scope [.scope [], .line "a"]]).text =
    "\x7b\n \x7b\n\x7d\na\n\x7d\n" := by decide

theorem writeAll_append (p : Printer) (nodes more : List Node) :
    p.writeAll (nodes ++ more) = (p.writeAll nodes).writeAll more := by
  induction nodes generalizing p with
  | nil => rfl
  | cons node rest ih => exact ih (p.write node)

/-- Printing nodes at any level appends their lines, indented by the level and their own depths up
to a deepest one, and changes nothing else. So whatever was printed before, nodes are printed as if
they were the first. A level in a word is enough where the deepest level of the nodes fits. -/
theorem printing_realises_layout (p : Printer) (nodes : List Node) :
    p.writeAll nodes = { p with
      text := p.text ++
        CodeLine.printAll p.width ((Node.allLines 0 nodes).map (CodeLine.deeper p.level)) } ∧
      (∀ before, p.writeAll (before ++ nodes) = { p with
        text := (p.writeAll before).text ++
          CodeLine.printAll p.width ((Node.allLines 0 nodes).map (CodeLine.deeper p.level)) }) ∧
      ∀ limit, p.level + Node.allNesting nodes ≤ limit →
        p.writeAllUpTo limit nodes = p.writeAll nodes := by
  have hwrite (q : Printer) (hlevel : q.level = p.level) (hwidth : q.width = p.width) :
      q.writeAll nodes = { p with
        text := q.text ++
          CodeLine.printAll p.width ((Node.allLines 0 nodes).map (CodeLine.deeper p.level)) } := by
    rw [writeAll_eq, Node.allLines_eq_deeper, append, hlevel, hwidth]
  refine ⟨hwrite p rfl rfl, fun before => ?_, fun limit => writeAllUpTo_eq⟩
  rw [writeAll_append]
  exact hwrite _ (by rw [writeAll_eq]; rfl) (by rw [writeAll_eq]; rfl)

/-- Blocks inside each other around an indented line, and a line behind them. -/
def nestedBlocks : List Node :=
  [.block "a" [.block "b" [.blank, .scope [.indented [.line "c"]]]], .line "d"]

theorem printing_realises_nestedBlocks :
    48 + Node.allNesting nestedBlocks ≤ 0xffffffffffffffff ∧
      writeAllUpTo 0xffffffffffffffff { level := 48, width := 1 } nestedBlocks =
        append { level := 48, width := 1 }
          [.code 48 "a", .code 48 "\x7b", .code 49 "b", .code 49 "\x7b", .blank, .code 50 "\x7b",
            .code 52 "c", .code 50 "\x7d", .code 49 "\x7d", .code 48 "\x7d", .code 48 "d"] := by
  have hfits : 48 + Node.allNesting nestedBlocks ≤ 0xffffffffffffffff := by decide
  obtain ⟨hprint, -, hword⟩ := printing_realises_layout { level := 48, width := 1 } nestedBlocks
  refine ⟨hfits, ?_⟩
  rw [hword _ hfits, hprint]
  rfl

end Printer

end CaseUnion
