import Mathlib.Data.List.Chain
import Mathlib.Data.List.TakeWhile
import CaseUnion.TypeRef.Token

/-!
# The layout of tokens

A text spells a list of tokens if it consists of them in this order, with any white space before,
between and after them (`Token.Spells`). Every text spells what is scanned from it (`spells_scan`).
Tokens are scanned from every text that spells them, if they are names and marks and no two names
stand side by side (`scan_eq_of_spells`).
-/

namespace CaseUnion

/-- The start of a name and then any number of further characters. -/
def IsName (first : Char) (rest : List Char) : Prop :=
  isNameStart first ∧ ∀ c ∈ rest, isNamePart c

namespace Text

/-- The first ranges end where the second have not begun, or the other way round. -/
def CodeRanges.Apart (xs ys : CodeRanges) : Prop :=
  ∀ x ∈ xs, ∀ y ∈ ys, x.2 < y.1 ∨ y.2 < x.1

instance (xs ys : CodeRanges) : Decidable (xs.Apart ys) :=
  inferInstanceAs (Decidable (∀ x ∈ xs, ∀ y ∈ ys, x.2 < y.1 ∨ y.2 < x.1))

theorem CodeRanges.contains_eq_false_of_apart {xs ys : CodeRanges} {c : Char} (h : xs.Apart ys)
    (hc : xs.contains c) : ys.contains c = false := by
  simp only [CodeRanges.contains, List.any_eq_true, Bool.and_eq_true, decide_eq_true_eq] at hc
  obtain ⟨x, hx, hlow, hhigh⟩ := hc
  simp only [CodeRanges.contains, List.any_eq_false, Bool.and_eq_true, decide_eq_true_eq]
  intro y hy
  have hxy := h x hx y hy
  omega

theorem isAlphabetic_eq_false_of_isBlank {c : Char} (h : isBlank c) : isAlphabetic c = false :=
  CodeRanges.contains_eq_false_of_apart
    (by decide +kernel : blankRanges.Apart alphabeticRanges) h

theorem isNumeric_eq_false_of_isBlank {c : Char} (h : isBlank c) : isNumeric c = false :=
  CodeRanges.contains_eq_false_of_apart (by decide +kernel : blankRanges.Apart numericRanges) h

end Text

theorem isNamePart_eq_false_of_isBlank {c : Char} (h : Text.isBlank c) : isNamePart c = false := by
  have hunderscore : c ≠ '_' := by
    rintro rfl
    revert h
    decide
  simp [isNamePart, hunderscore, Text.isAlphabetic_eq_false_of_isBlank h,
    Text.isNumeric_eq_false_of_isBlank h]

theorem isBlank_eq_false_of_isNameStart {c : Char} (h : isNameStart c) : Text.isBlank c = false := by
  rw [Bool.eq_false_iff]
  intro hblank
  simp only [isNameStart, Text.isAlphabetic_eq_false_of_isBlank hblank, Bool.or_false,
    Bool.or_eq_true, beq_iff_eq] at h
  rcases h with rfl | rfl <;> revert hblank <;> decide

namespace Token

def chars : Token → List Char
  | word first rest => first :: rest
  | mark c => [c]

/-- The text consists of the tokens, with white space before, between and after them. -/
inductive Spells : List Token → List Char → Prop
  | nil : Spells [] []
  | blank {c : Char} {tokens : List Token} {text : List Char} :
    Text.isBlank c → Spells tokens text → Spells tokens (c :: text)
  | token {t : Token} {tokens : List Token} {text : List Char} :
    Spells tokens text → Spells (t :: tokens) (t.chars ++ text)

theorem Spells.append {tokens tokens' : List Token} {text text' : List Char}
    (h : Spells tokens text) (h' : Spells tokens' text') :
    Spells (tokens ++ tokens') (text ++ text') := by
  induction h with
  | nil => exact h'
  | blank hc _ ih => exact .blank hc ih
  | token _ ih =>
    rw [List.cons_append, List.append_assoc]
    exact .token ih

theorem spells_singleton (t : Token) : Spells [t] t.chars := by
  simpa using Spells.token (t := t) .nil

theorem spells_scan (text : List Char) : Spells (scan text) text := by
  fun_induction scan text with
  | case1 => exact .nil
  | case2 c rest hblank ih => exact .blank hblank ih
  | case3 c rest _ _ ih =>
    have hrest : rest = rest.takeWhile isNamePart ++ rest.dropWhile isNamePart :=
      List.takeWhile_append_dropWhile.symm
    have htoken := Spells.token (t := .word c (rest.takeWhile isNamePart)) ih
    rwa [chars, List.cons_append, ← hrest] at htoken
  | case4 c rest _ _ ih => exact .token (t := .mark c) ih

theorem isName_takeWhile {c : Char} (hstart : isNameStart c) (text : List Char) :
    IsName c (text.takeWhile isNamePart) :=
  ⟨hstart, fun _ hx => List.mem_takeWhile_imp hx⟩

theorem isName_of_mem_scan {text : List Char} {first : Char} {others : List Char}
    (h : .word first others ∈ scan text) : IsName first others := by
  fun_induction scan text with
  | case1 => cases h
  | case2 c rest _ ih => exact ih h
  | case3 c rest _ hstart ih =>
    rcases List.mem_cons.1 h with heq | h
    · cases heq
      exact isName_takeWhile hstart _
    · exact ih h
  | case4 c rest _ _ ih =>
    rcases List.mem_cons.1 h with heq | h
    · cases heq
    · exact ih h

/-- The marks that stand in type references. -/
def marks : List Char := ['.', ',', '<', '>', '[', ']', '?']

theorem not_blank_of_mem_marks {c : Char} (h : c ∈ marks) : Text.isBlank c = false := by
  have hall : marks.all (!Text.isBlank ·) := by decide +kernel
  simpa using List.all_eq_true.1 hall c h

theorem not_name_of_mem_marks {c : Char} (h : c ∈ marks) :
    isNameStart c = false ∧ isNamePart c = false := by
  have hall : marks.all fun c => !isNameStart c && !isNamePart c := by decide +kernel
  simpa using List.all_eq_true.1 hall c h

/-- A name, or one of the marks of type references. -/
def IsTerminal : Token → Prop
  | word first rest => IsName first rest
  | mark c => c ∈ marks

def isWord : Token → Bool
  | word _ _ => true
  | mark _ => false

/-- No name stands directly behind a name. -/
def Separated (tokens : List Token) : Prop := tokens.IsChain fun a b => a.isWord → !b.isWord

/-- A text that does not spell a name first does not extend a name in front of it. -/
theorem Spells.head_not_part {tokens : List Token} {text rest : List Char} {c : Char}
    (h : Spells tokens text) (hterminal : ∀ t ∈ tokens, t.IsTerminal)
    (hhead : ∀ t ∈ tokens.head?, !t.isWord) (htext : text = c :: rest) : isNamePart c = false := by
  cases h with
  | nil => cases htext
  | blank hblank =>
    cases htext
    exact isNamePart_eq_false_of_isBlank hblank
  | @token t tokens text =>
    cases t with
    | word first others =>
      have hword := hhead _ rfl
      cases hword
    | mark c' =>
      cases htext
      exact (not_name_of_mem_marks (hterminal _ List.mem_cons_self)).2

/-- A name ends where no part of a name follows. -/
theorem scan_name {first : Char} {rest text : List Char} (h : IsName first rest)
    (hstop : ∀ c ∈ text.head?, isNamePart c = false) :
    scan (first :: (rest ++ text)) = word first rest :: scan text := by
  have htake : text.takeWhile isNamePart = [] := by
    cases text with
    | nil => rfl
    | cons c text => exact List.takeWhile_cons_of_neg (by simp [hstop c rfl])
  have hdrop : text.dropWhile isNamePart = text := by
    cases text with
    | nil => rfl
    | cons c text => exact List.dropWhile_cons_of_neg (by simp [hstop c rfl])
  rw [scan, isBlank_eq_false_of_isNameStart h.1, if_neg Bool.false_ne_true, if_pos h.1,
    List.takeWhile_append_of_pos h.2, List.dropWhile_append_of_pos h.2, htake, hdrop,
    List.append_nil]

theorem scan_mark {c : Char} (h : c ∈ marks) (text : List Char) :
    scan (c :: text) = mark c :: scan text := by
  rw [scan, not_blank_of_mem_marks h, if_neg Bool.false_ne_true, (not_name_of_mem_marks h).1,
    if_neg Bool.false_ne_true]

theorem scan_eq_of_spells {tokens : List Token} {text : List Char} (h : Spells tokens text)
    (hterminal : ∀ t ∈ tokens, t.IsTerminal) (hseparated : Separated tokens) :
    scan text = tokens := by
  induction h with
  | nil => rw [scan]
  | blank hblank _ ih =>
    rw [scan, if_pos hblank]
    exact ih hterminal hseparated
  | @token t tokens text hrest ih =>
    have hscan := ih (fun t ht => hterminal t (List.mem_cons_of_mem _ ht)) hseparated.tail
    cases t with
    | word first rest =>
      have hstop : ∀ c ∈ text.head?, isNamePart c = false := by
        intro c hc
        obtain ⟨rest', htext⟩ := List.head?_eq_some_iff.1 hc
        apply hrest.head_not_part (fun t ht => hterminal t (List.mem_cons_of_mem _ ht)) _ htext
        intro t ht
        exact (List.isChain_cons.1 hseparated).1 t ht rfl
      rw [chars, List.cons_append, scan_name (hterminal _ List.mem_cons_self) hstop, hscan]
    | mark c =>
      rw [chars, List.singleton_append, scan_mark (hterminal _ List.mem_cons_self), hscan]

end Token
end CaseUnion
