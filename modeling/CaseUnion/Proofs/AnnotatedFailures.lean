import Mathlib.Data.List.Induction
import CaseUnion.Proofs.FlattenedFailures

/-!
# Annotated failures

Sources and labels are attached to the outermost context of a failure, and are read from the
innermost context on. Both agree: a failure keeps its own source, else the first one attached is its
source, and attached labels come behind its own in the order they were attached
(`attachments_accumulate`).

A context answers for the first cause in it. So attachments change neither code nor severity nor
span, and a message only if it is the count of a group (`attachments_keep_root`).
-/

namespace CaseUnion

/-- What is attached to a failure. -/
inductive Attachment where
  | source (source : Source)
  | label (label : Label)
  deriving DecidableEq, Repr

namespace Attachment

def source? : Attachment → Option Source
  | source s => some s
  | label _ => none

def label? : Attachment → Option Label
  | source _ => none
  | label l => some l

end Attachment

/-- No cause is worded like a count. -/
theorem Cause.exists_head_message (c : Cause) :
    ∃ first, c.message.toList.head? = some first ∧ first.isDigit = false := by
  have hfirst : c.message.toList.head?.any fun first => !first.isDigit := by
    cases c with
    | defaultInitialization => decide +kernel
    | _ =>
      -- every other wording is put together, and its first part has no digit in front
      delta message
      simp only [String.toList_append, List.head?_append]
      rfl
  cases hhead : c.message.toList.head? with
  | none =>
    rw [hhead] at hfirst
    cases hfirst
  | some first =>
    rw [hhead, Option.any_some, Bool.not_eq_true'] at hfirst
    exact ⟨first, rfl, hfirst⟩

namespace Failure

def attach (f : Failure) : Attachment → Failure
  | .source s => f.withSource s
  | .label l => f.withLabel l

/-- Attaches one after the other. -/
def attachAll (f : Failure) (attachments : List Attachment) : Failure :=
  attachments.foldl attach f

theorem attachAll_concat (f : Failure) (attachments : List Attachment) (a : Attachment) :
    f.attachAll (attachments ++ [a]) = (f.attachAll attachments).attach a := by
  rw [attachAll, List.foldl_append]
  rfl

/-! ### Sources and labels -/

theorem source?_attach (f : Failure) (a : Attachment) :
    (f.attach a).source? = f.source?.or a.source? := by
  cases f with
  | context inner known labels =>
    cases a with
    | source s => exact Option.or_assoc.symm
    | label l => exact Option.or_none.symm
  | _ => cases a <;> rfl

theorem labels_attach (f : Failure) (a : Attachment) :
    (f.attach a).labels = f.labels ++ a.label?.toList := by
  cases f with
  | context inner known labels =>
    cases a with
    | source s => exact (List.append_nil _).symm
    | label l => exact (List.append_assoc _ _ _).symm
  | _ => cases a <;> rfl

section
variable (f : Failure) (attachments : List Attachment)

theorem source?_attachAll :
    (f.attachAll attachments).source? = f.source?.or (attachments.findSome? Attachment.source?) := by
  induction attachments using List.reverseRecOn with
  | nil => exact Option.or_none.symm
  | append_singleton attachments a ih =>
    rw [attachAll_concat, source?_attach, ih, List.findSome?_append, Option.or_assoc]
    simp

theorem labels_attachAll :
    (f.attachAll attachments).labels = f.labels ++ attachments.filterMap Attachment.label? := by
  induction attachments using List.reverseRecOn with
  | nil => exact (List.append_nil _).symm
  | append_singleton attachments a ih =>
    rw [attachAll_concat, labels_attach, ih, List.filterMap_append, List.append_assoc]
    cases a <;> rfl

/-! ### The first cause -/

theorem root?_attach (a : Attachment) : (f.attach a).root? = f.root? := by
  cases a <;> cases f <;> rfl

theorem root?_attachAll : (f.attachAll attachments).root? = f.root? := by
  induction attachments using List.reverseRecOn with
  | nil => rfl
  | append_singleton attachments a ih => rw [attachAll_concat, root?_attach, ih]

theorem code_attachAll : (f.attachAll attachments).code = f.code := by
  rw [code, code, root?_attachAll]

theorem span_attachAll : (f.attachAll attachments).span = f.span := by
  rw [span, span, root?_attachAll]

end

/-! ### Reports -/

/-- The mark of a failure itself. -/
def Mark.ofSpan (text : String) (span : Span) : Mark := ⟨span.start, span.length, text, true⟩

def Mark.ofLabel (l : Label) : Mark := ⟨l.span.start, l.span.length, l.text, false⟩

/-- Sources and labels add up in the order they were attached. The report has marks exactly if there
is a source: one for the span of the failure, if it has one, and then those of the labels. -/
theorem attachments_accumulate (f : Failure) (attachments : List Attachment) :
    (f.attachAll attachments).source? =
        f.source?.or (attachments.findSome? Attachment.source?) ∧
      (f.attachAll attachments).labels = f.labels ++ attachments.filterMap Attachment.label? ∧
      ((f.attachAll attachments).report.marks.isSome ↔
        (f.attachAll attachments).source?.isSome) ∧
      (f.attachAll attachments).report.marks =
        (f.source?.or (attachments.findSome? Attachment.source?)).map fun _ =>
          (f.span.map (Mark.ofSpan (f.attachAll attachments).message)).toList ++
            (f.labels ++ attachments.filterMap Attachment.label?).map Mark.ofLabel := by
  refine ⟨source?_attachAll f attachments, labels_attachAll f attachments, ?_, ?_⟩
  · rw [report, Option.isSome_map]
  · rw [report, source?_attachAll, labels_attachAll, span_attachAll]
    cases f.span <;> rfl

/-! ### Messages and advice -/

/-- A group that is announced by its size. -/
def IsCounted (f : Failure) : Prop := ∃ members, f = several members ∧ members.length ≠ 1

/-- The advice of the first cause. -/
def rootHelp (f : Failure) : Option String := f.root?.bind fun (cause, _) => cause.help

variable {f : Failure} {attachments : List Attachment}

/-- No cause is a warning, so it does not matter that only the first cause in a context counts. -/
theorem severity_eq_error (f : Failure) : f.severity = .error := by
  induction f using groupInduction with
  | single f hf =>
    cases f with
    | plain cause span => rw [severity]; rfl
    | context inner source labels =>
      rw [severity, rootSeverity]
      split <;> rfl
    | several members => exact absurd trivial hf
  | several members ih =>
    cases members with
    | nil => rw [severity]
    | cons first rest =>
      have hfirst : first.isFatal := by
        rw [isFatal, ih first List.mem_cons_self]
        rfl
      rw [severity, if_pos ((anyFatal_iff _).2 ⟨first, List.mem_cons_self, hfirst⟩)]

theorem message_of_not_isCounted (h : ¬ f.IsCounted) : f.message = f.rootMessage := by
  rcases f with _ | _ | (_ | ⟨only, _ | ⟨second, rest⟩⟩)
  · rfl
  · rfl
  · exact absurd ⟨_, rfl, nofun⟩ h
  · rfl
  · exact absurd ⟨_, rfl, by simp⟩ h

theorem help_of_not_isGroup (h : ¬ f.IsGroup) : f.help = f.rootHelp := by
  cases f with
  | plain cause span => rfl
  | context inner source labels => rfl
  | several members => exact absurd trivial h

theorem message_of_isCounted (h : f.IsCounted) :
    ∃ first, f.message.toList.head? = some first ∧ first.isDigit := by
  obtain ⟨members, rfl, hlength⟩ := h
  have hmessage : (several members).message = s!"{members.length} errors occurred" := by
    rcases members with _ | ⟨only, _ | ⟨second, rest⟩⟩
    · rfl
    · exact absurd rfl hlength
    · rfl
  obtain ⟨first, rest, hdigits⟩ :=
    List.exists_cons_of_ne_nil (Nat.toDigits_ne_nil (b := 10) (n := members.length))
  have hfirst : first ∈ Nat.toDigits 10 members.length := hdigits ▸ List.mem_cons_self
  refine ⟨first, ?_, Nat.isDigit_of_mem_toDigits (by decide) (by decide) hfirst⟩
  rw [hmessage]
  simp [ToString.toString, hdigits]

theorem message_eq_rootMessage_iff : f.message = f.rootMessage ↔ ¬ f.IsCounted := by
  constructor
  · intro heq hcounted
    obtain ⟨first, hfirst, hdigit⟩ := message_of_isCounted hcounted
    rw [heq, rootMessage] at hfirst
    split at hfirst
    · rename_i cause _ _
      obtain ⟨other, hother, hnot⟩ := cause.exists_head_message
      rw [hfirst] at hother
      cases hother
      exact Bool.false_ne_true (hnot.symm.trans hdigit)
    · cases hfirst
  · exact message_of_not_isCounted

theorem help_eq_rootHelp_iff : f.help = f.rootHelp ↔ ¬ f.IsGroup ∨ f.rootHelp = none := by
  by_cases hgroup : f.IsGroup
  · cases f with
    | plain cause span => exact hgroup.elim
    | context inner source labels => exact hgroup.elim
    | several members =>
      rw [or_iff_right (not_not_intro hgroup)]
      exact eq_comm
  · exact iff_of_true (help_of_not_isGroup hgroup) (.inl hgroup)

theorem exists_context_attachAll (f : Failure) (h : attachments ≠ []) :
    ∃ inner source labels, f.attachAll attachments = context inner source labels := by
  obtain ⟨front, a, rfl⟩ := (List.eq_nil_or_concat' attachments).resolve_left h
  rw [attachAll_concat]
  cases a <;> cases f.attachAll front <;> exact ⟨_, _, _, rfl⟩

theorem message_attachAll (f : Failure) (h : attachments ≠ []) :
    (f.attachAll attachments).message = f.rootMessage := by
  obtain ⟨inner, source, labels, hcontext⟩ := exists_context_attachAll f h
  rw [rootMessage, ← root?_attachAll f attachments, hcontext]
  rfl

theorem help_attachAll (f : Failure) (h : attachments ≠ []) :
    (f.attachAll attachments).help = f.rootHelp := by
  obtain ⟨inner, source, labels, hcontext⟩ := exists_context_attachAll f h
  rw [rootHelp, ← root?_attachAll f attachments, hcontext]
  rfl

/-- Attachments leave code, severity and span as they are. With them a failure has the message and the
advice of its first cause, so a group that is counted loses its count, and one that gives no advice
may give some. -/
theorem attachments_keep_root (f : Failure) (attachments : List Attachment) :
    (f.attachAll attachments).code = f.code ∧
      (f.attachAll attachments).severity = f.severity ∧
      (f.attachAll attachments).span = f.span ∧
      ((f.attachAll attachments).message = f.message ↔ attachments = [] ∨ ¬ f.IsCounted) ∧
      ((f.attachAll attachments).help = f.help ↔
        attachments = [] ∨ ¬ f.IsGroup ∨ f.rootHelp = none) ∧
      (attachments ≠ [] → (f.attachAll attachments).message = f.rootMessage ∧
        (f.attachAll attachments).help = f.rootHelp) := by
  refine ⟨code_attachAll f attachments, ?_, span_attachAll f attachments, ?_, ?_, fun h =>
    ⟨message_attachAll f h, help_attachAll f h⟩⟩
  · rw [severity_eq_error, severity_eq_error]
  · by_cases h : attachments = []
    · exact iff_of_true (by rw [h]; rfl) (.inl h)
    · rw [message_attachAll f h, eq_comm, message_eq_rootMessage_iff, or_iff_right h]
  · by_cases h : attachments = []
    · exact iff_of_true (by rw [h]; rfl) (.inl h)
    · rw [help_attachAll f h, eq_comm, help_eq_rootHelp_iff, or_iff_right h]

/-- Two failures together. -/
def pairOfFailures : Failure :=
  several [of (.duplicateCase "Shape" "A"), of (.unknownCase "Shape" "B")]

/-- With a source the two of them read like the first one alone. -/
theorem attachments_keep_root_pairOfFailures :
    [Attachment.source ⟨"Shape.cs", "s"⟩] ≠ [] ∧
      (pairOfFailures.attachAll [.source ⟨"Shape.cs", "s"⟩]).message =
        "union 'Shape' declares case 'A' more than once" ∧
      (pairOfFailures.attachAll [.source ⟨"Shape.cs", "s"⟩]).help =
        some "case names must be unique within a union" := by
  obtain ⟨-, -, -, -, -, hroot⟩ := attachments_keep_root pairOfFailures [.source ⟨"Shape.cs", "s"⟩]
  obtain ⟨hmessage, hhelp⟩ := hroot (List.cons_ne_nil _ _)
  exact ⟨List.cons_ne_nil _ _, hmessage, hhelp⟩

/-- The count of a group is not kept, and no more is that it has no advice of its own. -/
theorem attachment_hides_count :
    pairOfFailures.message = "2 errors occurred" ∧ pairOfFailures.help = none ∧
      ¬ ∀ (f : Failure) (attachments : List Attachment),
        (f.attachAll attachments).code = f.code ∧
          (f.attachAll attachments).message = f.message ∧
          (f.attachAll attachments).severity = f.severity ∧
          (f.attachAll attachments).help = f.help ∧
          (f.attachAll attachments).span = f.span := by
  refine ⟨by decide +kernel, rfl, fun h => ?_⟩
  obtain ⟨-, -, -, hhelp, -⟩ := h pairOfFailures [.source ⟨"Shape.cs", "s"⟩]
  cases hhelp

end Failure
end CaseUnion
