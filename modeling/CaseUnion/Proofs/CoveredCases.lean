import CaseUnion.Proofs.EscapedNames
import CaseUnion.Proofs.OfferedFixes

/-!
# Covered cases

A call covers a case by the number of its positional arguments or by a named argument
(`covers_iff_of_getElem?`). What it lacks is one argument for each other case, and each of these
arguments is a callback with as many inputs as its case has parameters (`isCallback_placeholder`).

With these arguments the call covers every case, and lacks nothing. They are named, so the positional
arguments still cover the cases that they covered, and none of these is supplied once more:
`missingArguments_complete_call`.
-/

namespace CaseUnion

/-- A callback as it is written in the host language. A single input has no parentheses. -/
def callbackText (inputs : List String) (body : String) : String :=
  match inputs with
  | [input] => input ++ " => " ++ body
  | inputs => "(" ++ ", ".intercalate inputs ++ ")" ++ " => " ++ body

/-- A callback that takes a number of distinct inputs and throws. -/
def IsCallback (text : String) (arity : Nat) : Prop :=
  ∃ inputs : List String, inputs.length = arity ∧ inputs.Nodup ∧
    (∀ input ∈ inputs, Text.IsIdentifier input.toList) ∧
    text = callbackText inputs "throw new System.NotImplementedException()"

theorem callbackText_of_two_le {inputs : List String} (h : 2 ≤ inputs.length) (body : String) :
    callbackText inputs body = "(" ++ ", ".intercalate inputs ++ ")" ++ " => " ++ body := by
  match inputs, h with
  | _ :: _ :: _, _ => rfl

theorem Text.CodeRanges.contains_of_mem {ranges : CodeRanges} {low high : Nat} {c : Char}
    (h : (low, high) ∈ ranges) (hlow : low ≤ c.toNat) (hhigh : c.toNat ≤ high) :
    ranges.contains c :=
  List.any_eq_true.2 ⟨(low, high), h, by simp [hlow, hhigh]⟩

theorem isAlphabetic_of_isLower {c : Char} (h : c.isLower) : Text.isAlphabetic c := by
  obtain ⟨hlow, hhigh⟩ := Bool.and_eq_true_iff.1 h
  have hletters : (0x61, 0x7A) ∈ Text.alphabeticRanges := List.mem_cons_of_mem _ List.mem_cons_self
  exact Text.CodeRanges.contains_of_mem hletters (of_decide_eq_true hlow) (of_decide_eq_true hhigh)

theorem isNumeric_of_isDigit {c : Char} (h : c.isDigit) : Text.isNumeric c := by
  obtain ⟨hlow, hhigh⟩ := Bool.and_eq_true_iff.1 h
  have hdigits : (0x30, 0x39) ∈ Text.numericRanges := List.mem_cons_self
  exact Text.CodeRanges.contains_of_mem hdigits (of_decide_eq_true hlow) (of_decide_eq_true hhigh)

theorem isIdentifier_of_isLower {first : Char} {rest : List Char} (hfirst : first.isLower)
    (hrest : rest.all fun c => c.isLower || c.isDigit) : Text.IsIdentifier (first :: rest) := by
  refine ⟨.inr (isAlphabetic_of_isLower hfirst), fun c hc => ?_⟩
  rw [isNamePart]
  rcases Bool.or_eq_true_iff.1 (List.all_eq_true.1 hrest c hc) with hlower | hdigit
  · simp [isAlphabetic_of_isLower hlower]
  · simp [isNumeric_of_isDigit hdigit]

section
variable (n : Nat)

theorem toList_numbered : s!"arg{n}".toList = 'a' :: (['r', 'g'] ++ Nat.toDigits 10 n) := by
  simp [ToString.toString]

theorem isIdentifier_numbered : Text.IsIdentifier s!"arg{n}".toList := by
  rw [toList_numbered]
  have hdigits : (Nat.toDigits 10 n).all fun c => c.isLower || c.isDigit := by
    refine List.all_eq_true.2 fun c hc => ?_
    simp [Nat.isDigit_of_mem_toDigits (by decide) (by decide) hc]
  refine isIdentifier_of_isLower (by decide) ?_
  rw [List.all_append, hdigits]
  decide

theorem nodup_numbered : ((List.range n).map fun i => s!"arg{i + 1}").Nodup := by
  refine List.Nodup.map (fun i j h => ?_) List.nodup_range
  have hchars := congrArg String.toList h
  rw [toList_numbered, toList_numbered] at hchars
  exact Nat.succ_injective (toDigits_injective (List.append_cancel_left (List.cons.inj hchars).2))

theorem isCallback_placeholder : IsCallback (placeholder n) n := by
  match n with
  | 0 => exact ⟨[], rfl, .nil, by simp, by decide⟩
  | 1 =>
    have harg : Text.IsIdentifier "arg".toList := isIdentifier_of_isLower (by decide) (by decide)
    exact ⟨["arg"], rfl, by simp, List.forall_mem_singleton.2 harg, by decide⟩
  | n + 2 =>
    have hlength : ((List.range (n + 2)).map fun i => s!"arg{i + 1}").length = n + 2 := by simp
    refine ⟨_, hlength, nodup_numbered (n + 2), ?_, ?_⟩
    · intro input hinput
      obtain ⟨i, -, rfl⟩ := List.mem_map.1 hinput
      exact isIdentifier_numbered (i + 1)
    · rw [callbackText_of_two_le (by omega), String.append_assoc]
      rfl

end

section
variable {u : UnionType} {call completed : Invocation} {k : UnionCase}

theorem covers_of_completed (h : (u.cases.map (·.name)).Nodup)
    (hcompleted : completed.arguments = call.arguments ++ missingArguments u call)
    (hk : k ∈ u.cases) : completed.Covers u k := by
  by_contra hnot
  have hlacks := (missingArguments_ne_nil_iff completed h).2 ⟨k, hk, hnot⟩
  exact hlacks (missingArguments_eq_nil call hcompleted)

/-- A call lacks one callback for each case that it does not cover, in declared order. With these
arguments it covers every case, none of those that it covered before is supplied again, and it lacks
nothing. -/
theorem missingArguments_complete_call (u : UnionType) (h : (u.cases.map (·.name)).Nodup)
    (call : Invocation) :
    (∃ lacking : List UnionCase, lacking.Sublist u.cases ∧ (lacking.map (·.name)).Nodup ∧
      (∀ position k, u.cases[position]? = some k →
        (k ∈ lacking ↔ call.positionalCount ≤ position ∧ k.name ∉ call.namedArguments)) ∧
      List.Forall₂ (fun a k => a.name = some k.name ∧ IsCallback a.expression k.arity)
        (missingArguments u call) lacking) ∧
    ∀ completed : Invocation,
      completed.arguments = call.arguments ++ missingArguments u call →
        (∀ k ∈ u.cases, completed.Covers u k) ∧
        (∀ k ∈ u.cases, call.Covers u k →
          some k.name ∉ (missingArguments u call).map (·.name)) ∧
        completed.positionalCount = call.positionalCount ∧ missingArguments u completed = [] := by
  obtain ⟨lacking, hsublist, hmem, hnodup, heq⟩ := fillsIn_missingArguments call h
  refine ⟨⟨lacking, hsublist, hnodup, ?_, ?_⟩, fun completed hcompleted => ⟨fun k hk =>
    covers_of_completed h hcompleted hk, ?_, positionalCount_of_completed hcompleted,
    missingArguments_eq_nil call hcompleted⟩⟩
  · intro position k hat
    rw [hmem, and_iff_right (List.mem_of_getElem? hat), covers_iff_of_getElem? h hat, not_or,
      Nat.not_lt]
  · rw [heq, List.forall₂_map_left_iff]
    exact List.forall₂_same.2 fun k _ => ⟨rfl, isCallback_placeholder k.arity⟩
  · intro k hk hcovers hagain
    rw [heq, List.map_map] at hagain
    obtain ⟨other, hother, hname⟩ := List.mem_map.1 hagain
    -- a case is known by its name
    have hsame : other = k :=
      List.inj_on_of_nodup_map h (hsublist.subset hother) hk (Option.some.inj hname)
    exact ((hmem k).1 (hsame ▸ hother)).2 hcovers

end

/-- Four cases with different numbers of parameters. -/
def fourCases : UnionType where
  name := "Shape"
  descriptor := .ofHeader { name := "Shape", kind := .structType } none []
  cases :=
    let parameter (name : String) : CaseParameter := ⟨name, .ofReference (.simple "int") []⟩
    [⟨"Empty", []⟩, ⟨"Circle", [parameter "radius"]⟩, ⟨"Box", [parameter "width", parameter "height"]⟩,
      ⟨"Line", [parameter "from", parameter "to"]⟩]
  allowDefault := false

/-- A call with a positional argument, one for a case further on, and one for an unknown case. -/
def mixedCall : Invocation where
  callee := "s.Match"
  method := "Match"
  arguments := [⟨none, "f"⟩, ⟨some "Box", "g"⟩, ⟨some "Oval", "h"⟩]
  span := ⟨0, 31⟩

theorem missingArguments_complete_mixedCall :
    (∃ circle line : UnionCase, circle.name = "Circle" ∧ line.name = "Line" ∧
      List.Forall₂ (fun a k => a.name = some k.name ∧ IsCallback a.expression k.arity)
        (missingArguments fourCases mixedCall) [circle, line]) ∧
    (∀ k ∈ fourCases.cases, Invocation.Covers
      { mixedCall with
        arguments := mixedCall.arguments ++ missingArguments fourCases mixedCall } fourCases k) ∧
    some "Box" ∉ (missingArguments fourCases mixedCall).map (·.name) := by
  obtain ⟨⟨lacking, -, -, -, harguments⟩, hcompleted⟩ :=
    missingArguments_complete_call fourCases (by decide) mixedCall
  obtain ⟨hcovers, hagain, -⟩ := hcompleted
    { mixedCall with arguments := mixedCall.arguments ++ missingArguments fourCases mixedCall } rfl
  refine ⟨?_, hcovers, ?_⟩
  · match lacking, harguments with
    | [circle, line], .cons hcircle (.cons hline .nil) =>
      exact ⟨circle, line, Option.some.inj hcircle.1.symm, Option.some.inj hline.1.symm,
        .cons hcircle (.cons hline .nil)⟩
  · have hbox : mixedCall.Covers fourCases fourCases.cases[2] := .inr (by decide)
    exact hagain _ (List.getElem_mem _) hbox

end CaseUnion
