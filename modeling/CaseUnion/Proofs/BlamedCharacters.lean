import CaseUnion.Proofs.TypeGrammar

/-!
# The character that is blamed

A text that is not a type reference is rejected at its first bad character. The reader has taken all
tokens in front of that character, and from every state a few more tokens lead to a complete type
(`Reading.exists_completion`), so the text in front can still become a type reference. Whether a token
is taken depends only on its first character, which cannot become part of a token in front of it
(`Token.exists_split_of_scan`), so nothing that follows the blamed character can make up for it. If
no token is refused the text ends too early, and then all of it can become a type reference:
`parse_blames_first_offence`.
-/

namespace CaseUnion

namespace Token

structure Alike (t t' : Token) : Prop where
  head_eq : t'.head = t.head
  isWord_eq : t'.isWord = t.isWord

theorem isNamePart_head?_dropWhile (text : List Char) :
    ∀ c ∈ (text.dropWhile isNamePart).head?, isNamePart c = false := by
  intro c hc
  have hnot := List.head?_dropWhile_not isNamePart text
  rw [Option.mem_def.1 hc] at hnot
  exact hnot

/-- A blank keeps what follows it apart from the text in front of it. -/
theorem scan_append_blank (text rest : List Char) :
    scan (text ++ ' ' :: rest) = scan text ++ scan rest := by
  have hblank : Text.isBlank ' ' := by decide
  fun_induction scan text with
  | case1 => rw [List.nil_append, scan, if_pos hblank, List.nil_append]
  | case2 c text hc ih => rw [List.cons_append, scan, if_pos hc, ih]
  | case3 c text hc hstart ih =>
    have hstop : ∀ x ∈ (text.dropWhile isNamePart ++ ' ' :: rest).head?, isNamePart x = false := by
      intro x hx
      cases hdrop : text.dropWhile isNamePart with
      | nil =>
        rw [hdrop] at hx
        cases hx
        exact isNamePart_eq_false_of_isBlank hblank
      | cons y ys =>
        rw [hdrop] at hx
        exact isNamePart_head?_dropWhile text x (by rw [hdrop]; exact hx)
    have hscan := scan_name (isName_takeWhile hstart text) hstop
    rw [← List.append_assoc, List.takeWhile_append_dropWhile] at hscan
    rw [List.cons_append, hscan, ih, List.cons_append]
  | case4 c text hc hstart ih =>
    rw [List.cons_append, scan, if_neg hc, if_neg hstart, ih, List.cons_append]

/-- The first character of a token stands where the tokens in front of it end, and whatever follows
it, it starts a token like this one. -/
theorem exists_split_of_scan {text : List Char} {front back : List Token} {t : Token}
    (h : scan text = front ++ t :: back) :
    ∃ before after, text = before ++ t.head :: after ∧ scan before = front ∧
      ∀ rest, ∃ t' back', scan (before ++ t.head :: rest) = front ++ t' :: back' ∧ t.Alike t' := by
  fun_induction scan text generalizing front with
  | case1 => simp at h
  | case2 c text hc ih =>
    obtain ⟨before, after, rfl, hbefore, hrest⟩ := ih h
    refine ⟨c :: before, after, rfl, by rw [scan, if_pos hc, hbefore], fun rest => ?_⟩
    rw [List.cons_append, scan, if_pos hc]
    exact hrest rest
  | case3 c text hc hstart ih =>
    cases front with
    | nil =>
      obtain ⟨rfl, -⟩ := List.cons.inj h
      refine ⟨[], text, rfl, by rw [scan], fun rest => ?_⟩
      rw [List.nil_append, head, scan, if_neg hc, if_pos hstart]
      exact ⟨_, _, rfl, rfl, rfl⟩
    | cons first front =>
      obtain ⟨rfl, hback⟩ := List.cons.inj h
      obtain ⟨before, after, hdrop, hbefore, hrest⟩ := ih hback
      have hname : IsName c (text.takeWhile isNamePart) := isName_takeWhile hstart text
      have hpart := isNamePart_head?_dropWhile text
      rw [hdrop] at hpart
      refine ⟨c :: (text.takeWhile isNamePart ++ before), after, ?_, ?_, fun rest => ?_⟩
      · rw [List.cons_append, List.append_assoc, ← hdrop, List.takeWhile_append_dropWhile]
      · have hstop : ∀ x ∈ before.head?, isNamePart x = false := by
          intro x hx
          exact hpart x (by rw [List.head?_append, Option.mem_def.1 hx]; rfl)
        rw [scan_name hname hstop, hbefore]
      · have hstop : ∀ x ∈ (before ++ t.head :: rest).head?, isNamePart x = false := by
          intro x hx
          exact hpart x (by rwa [List.head?_append, List.head?_cons] at hx ⊢)
        obtain ⟨t', back', hscan, halike⟩ := hrest rest
        refine ⟨t', back', ?_, halike⟩
        rw [List.cons_append, List.append_assoc, scan_name hname hstop, hscan, List.cons_append]
  | case4 c text hc hstart ih =>
    cases front with
    | nil =>
      obtain ⟨rfl, -⟩ := List.cons.inj h
      refine ⟨[], text, rfl, by rw [scan], fun rest => ?_⟩
      rw [List.nil_append, head, scan, if_neg hc, if_neg hstart]
      exact ⟨_, _, rfl, rfl, rfl⟩
    | cons first front =>
      obtain ⟨rfl, hback⟩ := List.cons.inj h
      obtain ⟨before, after, rfl, hbefore, hrest⟩ := ih hback
      refine ⟨c :: before, after, rfl, by rw [scan, if_neg hc, if_neg hstart, hbefore],
        fun rest => ?_⟩
      obtain ⟨t', back', hscan, halike⟩ := hrest rest
      refine ⟨t', back', ?_, halike⟩
      rw [List.cons_append, scan, if_neg hc, if_neg hstart, hscan, List.cons_append]

end Token

namespace TypeRef

/-- The message quotes a character that it says was found. -/
inductive QuotesFound (found : Char) : String → Prop
  | unexpected : QuotesFound found s!"unexpected character '{found}'"
  | trailing : QuotesFound found s!"unexpected trailing character '{found}'"
  | instead (wanted : Char) : QuotesFound found s!"expected '{wanted}', found '{found}'"

/-- The message says that the end of the text was found. -/
inductive SpeaksOfEnd : String → Prop
  | name : SpeaksOfEnd "expected a type name, found end of input"
  | mark (wanted : Char) : SpeaksOfEnd s!"expected '{wanted}', found end of input"

theorem toList_quoted (front : String) (c : Char) :
    (front ++ toString c ++ "'").toList = front.toList ++ [c, '\''] := by
  have hchar : (toString c).toList = [c] := String.toList_singleton c
  rw [String.toList_append, String.toList_append, List.append_assoc, hchar]
  simp

theorem QuotesFound.exists_toList {found : Char} {message : String} (h : QuotesFound found message) :
    ∃ front, message.toList = front ++ [found, '\''] := by
  cases h with
  | unexpected => exact ⟨_, toList_quoted _ found⟩
  | trailing => exact ⟨_, toList_quoted _ found⟩
  | instead wanted => exact ⟨_, toList_quoted _ found⟩

theorem SpeaksOfEnd.exists_toList {message : String} (h : SpeaksOfEnd message) :
    ∃ front, message.toList = front ++ "end of input".toList := by
  cases h with
  | name => exact ⟨"expected a type name, found ".toList, by decide +kernel⟩
  | mark wanted =>
    have hend : "', found end of input" = "', found " ++ "end of input" := by decide
    refine ⟨("expected '" ++ toString wanted ++ "', found ").toList, ?_⟩
    rw [← String.toList_append, @String.append_assoc _ "', found ", ← hend]
    rfl

theorem QuotesFound.unique {found found' : Char} {message : String} (h : QuotesFound found message)
    (h' : QuotesFound found' message) : found = found' := by
  obtain ⟨front, hfront⟩ := h.exists_toList
  obtain ⟨front', hfront'⟩ := h'.exists_toList
  obtain ⟨-, hlast⟩ := List.append_inj' (hfront.symm.trans hfront') rfl
  exact (List.cons.inj hlast).1

theorem SpeaksOfEnd.not_quotesFound {found : Char} {message : String} (h : SpeaksOfEnd message) :
    ¬ QuotesFound found message := by
  intro hquotes
  obtain ⟨front, hfront⟩ := h.exists_toList
  obtain ⟨front', hfront'⟩ := hquotes.exists_toList
  have hlast := congrArg List.getLast? (hfront.symm.trans hfront')
  simp at hlast

namespace Reading

variable {r last : Reading} {opened : List Opened} {e : Expecting} {t : TypeRef} {token : Token}
  {blame : Blame}

/-! ## Refused tokens -/

theorem quotesFound_of_stepAfterType (h : stepAfterType opened t token = .error blame) :
    QuotesFound token.head blame.message := by
  rw [stepAfterType.eq_def] at h
  split at h
  · cases h
  · cases h
  · split at h
    · cases h
      exact .trailing
    · split at h
      · cases h
      · cases h
      · cases h
        exact .instead '>'

theorem quotesFound_of_stepAfterSegment {segments : List TypeSegment}
    (h : stepAfterSegment opened segments token = .error blame) :
    QuotesFound token.head blame.message := by
  rw [stepAfterSegment.eq_def] at h
  split at h
  · cases h
  · exact quotesFound_of_stepAfterType h

theorem quotesFound_of_step (h : r.step token = .error blame) :
    QuotesFound token.head blame.message := by
  obtain ⟨opened, e⟩ := r
  cases e with
  | name before =>
    cases token with
    | word first rest => cases h
    | mark c =>
      cases h
      exact .unexpected
  | afterName before name =>
    simp only [step] at h
    split at h
    · cases h
    · exact quotesFound_of_stepAfterSegment h
  | afterSegment segments => exact quotesFound_of_stepAfterSegment h
  | afterType type => exact quotesFound_of_stepAfterType h
  | bracket element =>
    simp only [step] at h
    split at h
    · cases h
    · cases h
      exact .instead ']'

theorem step_of_alike {token' : Token} (h : r.step token = .error blame)
    (halike : token.Alike token') : r.step token' = .error blame := by
  obtain ⟨hhead, hword⟩ := halike
  cases token with
  | mark c =>
    cases token' with
    | mark c' =>
      cases hhead
      exact h
    | word first rest => cases hword
  | word first rest =>
    cases token' with
    | mark c' => cases hword
    | word first' rest' =>
      cases hhead
      -- only where a name is expected do the other characters of a name matter
      obtain ⟨opened, e⟩ := r
      cases e with
      | name before => cases h
      | afterName before last => cases opened <;> exact h
      | afterSegment segments => cases opened <;> exact h
      | afterType type => cases opened <;> exact h
      | bracket element => exact h

theorem exists_of_run_eq_error {tokens : List Token} (h : r.run tokens = .error blame) :
    ∃ front token back last, tokens = front ++ token :: back ∧ r.run front = .ok last ∧
      last.step token = .error blame := by
  induction tokens generalizing r with
  | nil => cases h
  | cons token tokens ih =>
    cases hstep : r.step token with
    | error b =>
      rw [run, hstep] at h
      cases h
      exact ⟨[], token, tokens, r, rfl, rfl, hstep⟩
    | ok next =>
      rw [run, hstep] at h
      obtain ⟨front, token', back, last, rfl, hrun, hlast⟩ := ih h
      refine ⟨token :: front, token', back, last, rfl, ?_, hlast⟩
      rw [run, hstep]
      exact hrun

/-- A text without a refused token is blamed for its end. -/
theorem speaksOfEnd_of_finish (h : r.finish = .error blame) : SpeaksOfEnd blame.message := by
  obtain ⟨opened, e⟩ := r
  cases e with
  | name before =>
    cases h
    exact .name
  | bracket element =>
    cases h
    exact .mark ']'
  | _ =>
    cases opened with
    | nil => cases h
    | cons inner outer =>
      cases h
      exact .mark '>'

/-! ## Completing what was read -/

/-- Behind a complete type it is enough to close what is open. -/
theorem exists_finish_of_type? (h : e.type? = some t) :
    ∃ last t', run ⟨opened, e⟩ (List.replicate opened.length (.mark '>')) = .ok last ∧
      last.finish = .ok t' := by
  induction opened generalizing e t with
  | nil => exact ⟨⟨[], e⟩, t, rfl, finish_of_type? h⟩
  | cons inner outer ih =>
    rw [List.length_cons, List.replicate_succ, run,
      step_eq_stepAfterType h (by decide) (by decide)]
    exact ih (e := .afterSegment (inner.before ++ [.mk inner.name (inner.arguments ++ [t])])) rfl

theorem scan_replicate (n : Nat) :
    Token.scan (List.replicate n '>') = List.replicate n (.mark '>') := by
  induction n with
  | zero => rw [List.replicate_zero, Token.scan, List.replicate_zero]
  | succ n ih =>
    rw [List.replicate_succ, Token.scan_mark (by decide), ih, List.replicate_succ]

/-- From every state some text leads to a complete type. -/
theorem exists_completion (r : Reading) :
    ∃ rest last t, r.run (Token.scan rest) = .ok last ∧ last.finish = .ok t := by
  obtain ⟨opened, e⟩ := r
  have hclose : ∀ {e : Expecting} {t : TypeRef}, e.type? = some t →
      ∃ last t', run ⟨opened, e⟩ (Token.scan (List.replicate opened.length '>')) = .ok last ∧
        last.finish = .ok t' := by
    intro e t he
    rw [scan_replicate]
    exact exists_finish_of_type? he
  cases e with
  | name before =>
    -- any name will do
    refine ⟨'_' :: ([] ++ List.replicate opened.length '>'), ?_⟩
    have hstop : ∀ c ∈ (List.replicate opened.length '>').head?, isNamePart c = false := by
      intro c hc
      rw [List.eq_of_mem_replicate (List.mem_of_mem_head? hc)]
      exact (Token.not_name_of_mem_marks (by decide)).2
    rw [Token.scan_name ⟨by decide, List.forall_mem_nil _⟩ hstop]
    exact hclose (e := .afterName before _) rfl
  | bracket element =>
    refine ⟨']' :: List.replicate opened.length '>', ?_⟩
    rw [Token.scan_mark (by decide)]
    exact hclose (e := .afterType (.array element)) rfl
  | afterName before name => exact ⟨_, hclose (e := .afterName before name) rfl⟩
  | afterSegment segments => exact ⟨_, hclose (e := .afterSegment segments) rfl⟩
  | afterType type => exact ⟨_, hclose (e := .afterType type) rfl⟩

end Reading

/-! ## Texts -/

/-- The text is the beginning of a type reference. -/
def IsTypeFront (text : String) : Prop := ∃ rest t, parse (text ++ rest) = .ok t

theorem isTypeFront_iff {text : String} :
    IsTypeFront text ↔ ∃ rest t, read (text.toList ++ rest) = .ok t := by
  constructor
  · rintro ⟨rest, t, h⟩
    refine ⟨rest.toList, t, ?_⟩
    rw [← String.toList_append]
    exact read_eq_ok_iff.2 (parse_eq_ok_iff.1 h)
  · rintro ⟨rest, t, h⟩
    refine ⟨String.ofList rest, t, parse_eq_ok_iff.2 ?_⟩
    rw [String.toList_append, String.toList_ofList]
    exact read_eq_ok_iff.1 h

theorem isTypeFront_of_run {text : String} {last : Reading}
    (h : Reading.start.run (Token.scan text.toList) = .ok last) : IsTypeFront text := by
  obtain ⟨rest, final, t, hrun, hfinish⟩ := last.exists_completion
  refine isTypeFront_iff.2 ⟨' ' :: rest, t, ?_⟩
  rw [read, ofTokens, Token.scan_append_blank, Reading.run_append h, hrun]
  exact hfinish

/-- The text in front of an offence is the beginning of a type reference, and the text up to it is
none. -/
def OffendsBehind (before : String) (found : Char) : Prop :=
  IsTypeFront before ∧ ¬ IsTypeFront (before ++ String.singleton found)

theorem exists_offence {text : String} {blame : Blame}
    (h : Reading.start.run (Token.scan text.toList) = .error blame) :
    ∃ found before after, text = before ++ String.singleton found ++ after ∧
      QuotesFound found blame.message ∧ OffendsBehind before found := by
  obtain ⟨front, token, back, last, hscan, hrun, hstep⟩ := Reading.exists_of_run_eq_error h
  obtain ⟨before, after, htext, hbefore, hrest⟩ := Token.exists_split_of_scan hscan
  refine ⟨token.head, .ofList before, .ofList after, ?_, Reading.quotesFound_of_step hstep, ?_, ?_⟩
  · apply String.toList_inj.1
    rw [htext]
    simp
  · have hfront : Reading.start.run (Token.scan (String.ofList before).toList) = .ok last := by
      rw [String.toList_ofList, hbefore, hrun]
    exact isTypeFront_of_run hfront
  · rw [isTypeFront_iff]
    rintro ⟨rest, t, hread⟩
    obtain ⟨token', back', hscan', halike⟩ := hrest rest
    rw [String.toList_append, String.toList_ofList, String.toList_singleton, List.append_assoc,
      List.singleton_append, read, ofTokens, hscan', Reading.run_append hrun, Reading.run,
      Reading.step_of_alike hstep halike] at hread
    cases hread

/-- A rejected text is blamed for the first character that no continuation can make up for, or for
its end if all of it could be continued to a type reference. -/
theorem parse_blames_first_offence (text : String) (failure : Failure)
    (h : parse text = .error failure) :
    failure.code = ⟨.document, 2⟩ ∧ ∃ message, failure = .of (.invalidTypeRef text message) ∧
      ((∃ found, QuotesFound found message) ∨ SpeaksOfEnd message) ∧
      (∀ found, QuotesFound found message →
        ∃ before after, text = before ++ String.singleton found ++ after ∧
          OffendsBehind before found) ∧
      (SpeaksOfEnd message → IsTypeFront text) := by
  cases hread : read text.toList with
  | ok t => simp [parse, hread] at h
  | error blame =>
    rw [parse, hread] at h
    cases h
    refine ⟨rfl, blame.message, rfl, ?_⟩
    rw [read, ofTokens] at hread
    split at hread
    · rename_i last hrun
      have hend := Reading.speaksOfEnd_of_finish hread
      exact ⟨.inr hend, fun found hfound => absurd hfound hend.not_quotesFound,
        fun _ => isTypeFront_of_run hrun⟩
    · rename_i hrun
      cases hread
      obtain ⟨found, before, after, htext, hfound, hoffends⟩ := exists_offence hrun
      refine ⟨.inl ⟨found, hfound⟩, fun found' hfound' => ?_,
        fun hend => absurd hfound hend.not_quotesFound⟩
      rw [← hfound.unique hfound']
      exact ⟨before, after, htext, hoffends⟩

/-- The mark behind an open bracket is blamed, although the list around it is still open. -/
theorem parse_blames_unclosedBracket :
    ∃ failure, parse "Map<é[ ?" = .error failure ∧
      failure = .of (.invalidTypeRef "Map<é[ ?" "expected ']', found '?'") ∧
      ∃ before after, "Map<é[ ?" = before ++ String.singleton '?' ++ after ∧
        OffendsBehind before '?' := by
  have hscan : Token.scan "Map<é[ ?".toList =
      [.word 'M' ['a', 'p'], .mark '<', .word 'é' [], .mark '[', .mark '?'] := by decide +kernel
  have hread : read "Map<é[ ?".toList = .error (.expected ']' '?') := by
    rw [read, hscan]
    rfl
  have hparse : parse "Map<é[ ?" =
      .error (.of (.invalidTypeRef "Map<é[ ?" "expected ']', found '?'")) := by
    rw [parse, hread]
    rfl
  obtain ⟨-, message, heq, -, hquoted, -⟩ := parse_blames_first_offence _ _ hparse
  refine ⟨_, hparse, rfl, hquoted '?' ?_⟩
  cases heq
  exact .instead ']'

end TypeRef
end CaseUnion
