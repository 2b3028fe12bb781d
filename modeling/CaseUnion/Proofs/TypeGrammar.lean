import CaseUnion.Proofs.TokenLayout
import CaseUnion.TypeRef.Reader

/-!
# The grammar of type references

The grammar relates lists of tokens to the types that they derive: `Derives` for types, with one
relation for each of its other parts. A text derives a type if it spells tokens that do.

The reader takes exactly the tokens of the grammar. A state of the reader stands for the tokens read
so far (`Reading.Reads`), which each step extends by one (`reads_of_step`), and the tokens of a type
lead from the start to a state in which this type is complete (`run_of_derives`). So reading a text
succeeds exactly if it derives a type, with this type, and both the tokens and the type are the only
ones: `parse_eq_ok_iff_derives`.
-/

namespace CaseUnion
namespace TypeRef

open Token (Spells)

mutual

/-- `Type = Seg ('.' Seg)* ('[' ']' | '?')*`, each suffix around all that stands in front of it. -/
inductive Derives : List Token → TypeRef → Prop
  | named {tokens : List Token} {segments : List TypeSegment} :
    DerivesPath tokens segments → Derives tokens (.named segments)
  | array {tokens : List Token} {t : TypeRef} :
    Derives tokens t → Derives (tokens ++ [.mark '[', .mark ']']) (.array t)
  | nullable {tokens : List Token} {t : TypeRef} :
    Derives tokens t → Derives (tokens ++ [.mark '?']) (.nullable t)

/-- `Seg ('.' Seg)*` -/
inductive DerivesPath : List Token → List TypeSegment → Prop
  | one {tokens : List Token} {s : TypeSegment} : DerivesSegment tokens s → DerivesPath tokens [s]
  | more {front tokens : List Token} {segments : List TypeSegment} {s : TypeSegment} :
    DerivesPath front segments → DerivesSegment tokens s →
      DerivesPath (front ++ .mark '.' :: tokens) (segments ++ [s])

/-- `Seg = Ident ('<' Type (',' Type)* '>')?` -/
inductive DerivesSegment : List Token → TypeSegment → Prop
  | plain {first : Char} {rest : List Char} :
    IsName first rest → DerivesSegment [.word first rest] (.mk (.ofList (first :: rest)) [])
  | generic {first : Char} {rest : List Char} {tokens : List Token} {arguments : List TypeRef} :
    IsName first rest → DerivesArguments tokens arguments →
      DerivesSegment (.word first rest :: .mark '<' :: (tokens ++ [.mark '>']))
        (.mk (.ofList (first :: rest)) arguments)

/-- `Type (',' Type)*` -/
inductive DerivesArguments : List Token → List TypeRef → Prop
  | one {tokens : List Token} {t : TypeRef} : Derives tokens t → DerivesArguments tokens [t]
  | more {front tokens : List Token} {arguments : List TypeRef} {t : TypeRef} :
    DerivesArguments front arguments → Derives tokens t →
      DerivesArguments (front ++ .mark ',' :: tokens) (arguments ++ [t])

end

mutual

theorem isTerminal_of_derives :
    ∀ {tokens t}, Derives tokens t → ∀ token ∈ tokens, token.IsTerminal
  | _, _, .named h => isTerminal_of_derivesPath h
  | _, _, .array h =>
    List.forall_mem_append.2
      ⟨isTerminal_of_derives h, by simp [Token.IsTerminal, Token.marks]⟩
  | _, _, .nullable h =>
    List.forall_mem_append.2
      ⟨isTerminal_of_derives h, by simp [Token.IsTerminal, Token.marks]⟩

theorem isTerminal_of_derivesPath :
    ∀ {tokens segments}, DerivesPath tokens segments → ∀ token ∈ tokens, token.IsTerminal
  | _, _, .one h => isTerminal_of_derivesSegment h
  | _, _, .more h hlast =>
    List.forall_mem_append.2 ⟨isTerminal_of_derivesPath h,
      List.forall_mem_cons.2 ⟨by simp [Token.IsTerminal, Token.marks],
        isTerminal_of_derivesSegment hlast⟩⟩

theorem isTerminal_of_derivesSegment :
    ∀ {tokens s}, DerivesSegment tokens s → ∀ token ∈ tokens, token.IsTerminal
  | _, _, .plain hname => List.forall_mem_singleton.2 hname
  | _, _, .generic hname h =>
    List.forall_mem_cons.2 ⟨hname, List.forall_mem_cons.2
      ⟨by simp [Token.IsTerminal, Token.marks], List.forall_mem_append.2
        ⟨isTerminal_of_derivesArguments h, by simp [Token.IsTerminal, Token.marks]⟩⟩⟩

theorem isTerminal_of_derivesArguments :
    ∀ {tokens arguments}, DerivesArguments tokens arguments → ∀ token ∈ tokens, token.IsTerminal
  | _, _, .one h => isTerminal_of_derives h
  | _, _, .more h hlast =>
    List.forall_mem_append.2 ⟨isTerminal_of_derivesArguments h,
      List.forall_mem_cons.2 ⟨by simp [Token.IsTerminal, Token.marks],
        isTerminal_of_derives hlast⟩⟩

end

/-! ## From tokens to the state of the reader -/

/-- The segments that are complete and could be all of a name. -/
def Expecting.path? : Expecting → Option (List TypeSegment)
  | .afterName before last => some (before ++ [.mk last []])
  | .afterSegment segments => some segments
  | _ => none

/-- The type that is complete in front of what is expected. -/
def Expecting.type? : Expecting → Option TypeRef
  | .afterType t => some t
  | e => e.path?.map .named

theorem Expecting.type?_of_path? {e : Expecting} {segments : List TypeSegment}
    (h : e.path? = some segments) : e.type? = some (.named segments) := by
  cases e <;> simp_all [path?, type?]

namespace Reading

variable {r next last : Reading} {opened : List Opened} {e : Expecting} {t : TypeRef}

theorem run_append {tokens : List Token} (h : r.run tokens = .ok next) (rest : List Token) :
    r.run (tokens ++ rest) = next.run rest := by
  induction tokens generalizing r with
  | nil =>
    cases h
    rfl
  | cons token tokens ih =>
    rw [run] at h
    rw [List.cons_append, run]
    cases hstep : r.step token with
    | error blame =>
      rw [hstep] at h
      cases h
    | ok middle =>
      rw [hstep] at h
      exact ih h

theorem step_dot {segments : List TypeSegment} (h : e.path? = some segments) :
    step ⟨opened, e⟩ (.mark '.') = .ok ⟨opened, .name segments⟩ := by
  cases e <;> cases h <;> rfl

theorem stepAfterSegment_of_ne_dot {segments : List TypeSegment} {token : Token}
    (h : token ≠ .mark '.') :
    stepAfterSegment opened segments token = stepAfterType opened (.named segments) token := by
  rw [stepAfterSegment.eq_def]
  split
  · exact absurd rfl h
  · rfl

theorem step_eq_stepAfterType {token : Token} (h : e.type? = some t) (hdot : token ≠ .mark '.')
    (hless : token ≠ .mark '<') : step ⟨opened, e⟩ token = stepAfterType opened t token := by
  cases e with
  | name before => cases h
  | afterName before last =>
    cases h
    simp only [step]
    exact stepAfterSegment_of_ne_dot hdot
  | afterSegment segments =>
    cases h
    exact stepAfterSegment_of_ne_dot hdot
  | afterType type =>
    cases h
    rfl
  | bracket element => cases h

theorem finish_of_type? (h : e.type? = some t) : finish ⟨[], e⟩ = .ok t := by
  cases e <;> cases h <;> rfl

end Reading

section
open Reading

mutual

/-- The tokens of a type lead to a state in which it is complete. -/
theorem run_of_derives : ∀ {tokens t}, Derives tokens t →
    ∃ e : Expecting, e.type? = some t ∧
      ∀ opened, Reading.run ⟨opened, .name []⟩ tokens = .ok ⟨opened, e⟩
  | _, _, .named h => by
    obtain ⟨e, he, hrun⟩ := run_of_derivesPath h
    exact ⟨e, Expecting.type?_of_path? he, hrun⟩
  | _, _, @Derives.array _ t h => by
    obtain ⟨e, he, hrun⟩ := run_of_derives h
    refine ⟨.afterType (.array t), rfl, fun opened => ?_⟩
    rw [run_append (hrun opened), run, step_eq_stepAfterType he (by decide) (by decide)]
    rfl
  | _, _, @Derives.nullable _ t h => by
    obtain ⟨e, he, hrun⟩ := run_of_derives h
    refine ⟨.afterType (.nullable t), rfl, fun opened => ?_⟩
    rw [run_append (hrun opened), run, step_eq_stepAfterType he (by decide) (by decide)]
    rfl

theorem run_of_derivesPath : ∀ {tokens segments}, DerivesPath tokens segments →
    ∃ e : Expecting, e.path? = some segments ∧
      ∀ opened, Reading.run ⟨opened, .name []⟩ tokens = .ok ⟨opened, e⟩
  | _, _, .one h => run_of_derivesSegment h []
  | _, _, @DerivesPath.more _ _ segments _ h hlast => by
    obtain ⟨e, he, hrun⟩ := run_of_derivesPath h
    obtain ⟨e', he', hrun'⟩ := run_of_derivesSegment hlast segments
    refine ⟨e', he', fun opened => ?_⟩
    rw [run_append (hrun opened), run, step_dot he]
    exact hrun' opened

theorem run_of_derivesSegment : ∀ {tokens s}, DerivesSegment tokens s → ∀ before,
    ∃ e : Expecting, e.path? = some (before ++ [s]) ∧
      ∀ opened, Reading.run ⟨opened, .name before⟩ tokens = .ok ⟨opened, e⟩
  | _, _, @DerivesSegment.plain first rest _, before =>
    ⟨.afterName before (.ofList (first :: rest)), rfl, fun _ => rfl⟩
  | _, _, @DerivesSegment.generic first rest _ arguments _ h, before => by
    obtain ⟨front, t, e, rfl, he, hrun⟩ := run_of_derivesArguments h
    refine ⟨.afterSegment (before ++ [.mk (.ofList (first :: rest)) (front ++ [t])]), rfl,
      fun opened => ?_⟩
    have harguments := hrun before (.ofList (first :: rest)) opened
    change Reading.run ⟨⟨before, .ofList (first :: rest), []⟩ :: opened, .name []⟩ _ = _
    rw [run_append harguments, run, step_eq_stepAfterType he (by decide) (by decide)]
    rfl

/-- In an open list the arguments lead to a state in which the last of them is complete. -/
theorem run_of_derivesArguments : ∀ {tokens arguments}, DerivesArguments tokens arguments →
    ∃ (front : List TypeRef) (t : TypeRef) (e : Expecting), arguments = front ++ [t] ∧
      e.type? = some t ∧ ∀ before name opened,
        Reading.run ⟨⟨before, name, []⟩ :: opened, .name []⟩ tokens =
          .ok ⟨⟨before, name, front⟩ :: opened, e⟩
  | _, _, @DerivesArguments.one _ t h => by
    obtain ⟨e, he, hrun⟩ := run_of_derives h
    exact ⟨[], t, e, rfl, he, fun before name opened => hrun _⟩
  | _, _, @DerivesArguments.more _ _ _ t h hlast => by
    obtain ⟨front, t', e, rfl, he, hrun⟩ := run_of_derivesArguments h
    obtain ⟨e', he', hrun'⟩ := run_of_derives hlast
    refine ⟨front ++ [t'], t, e', rfl, he', fun before name opened => ?_⟩
    rw [run_append (hrun before name opened), run, step_eq_stepAfterType he (by decide) (by decide)]
    exact hrun' _

end

end

theorem ofTokens_of_derives {tokens : List Token} {t : TypeRef} (h : Derives tokens t) :
    ofTokens tokens = .ok t := by
  obtain ⟨e, he, hrun⟩ := run_of_derives h
  have hstart : Reading.start.run tokens = .ok ⟨[], e⟩ := hrun []
  rw [ofTokens, hstart]
  exact Reading.finish_of_type? he

/-! ## From the state of the reader to tokens -/

/-- Tokens of segments with a dot behind each. -/
def ReadsBefore (tokens : List Token) (before : List TypeSegment) : Prop :=
  (tokens = [] ∧ before = []) ∨
    ∃ front, DerivesPath front before ∧ tokens = front ++ [.mark '.']

/-- Tokens of arguments with a comma behind each. -/
def ReadsArguments (tokens : List Token) (arguments : List TypeRef) : Prop :=
  (tokens = [] ∧ arguments = []) ∨
    ∃ front, DerivesArguments front arguments ∧ tokens = front ++ [.mark ',']

theorem ReadsBefore.concat {before tokens : List Token} {segments : List TypeSegment}
    {s : TypeSegment} (h : ReadsBefore before segments) (hs : DerivesSegment tokens s) :
    DerivesPath (before ++ tokens) (segments ++ [s]) := by
  rcases h with ⟨rfl, rfl⟩ | ⟨front, hfront, rfl⟩
  · exact .one hs
  · rw [List.append_assoc]
    exact .more hfront hs

theorem ReadsArguments.concat {before tokens : List Token} {arguments : List TypeRef}
    {t : TypeRef} (h : ReadsArguments before arguments) (ht : Derives tokens t) :
    DerivesArguments (before ++ tokens) (arguments ++ [t]) := by
  rcases h with ⟨rfl, rfl⟩ | ⟨front, hfront, rfl⟩
  · exact .one ht
  · rw [List.append_assoc]
    exact .more hfront ht

/-- The tokens of an argument list that is still open, with the segments in front of it. -/
inductive Opened.Reads : Opened → List Token → Prop
  | mk {segments : List TypeSegment} {arguments : List TypeRef} {first : Char} {rest : List Char}
    {before inner : List Token} :
    ReadsBefore before segments → IsName first rest → ReadsArguments inner arguments →
      Opened.Reads ⟨segments, .ofList (first :: rest), arguments⟩
        (before ++ .word first rest :: .mark '<' :: inner)

/-- The tokens of all open argument lists, of which the first is the innermost. -/
inductive ReadsOpened : List Opened → List Token → Prop
  | nil : ReadsOpened [] []
  | cons {inner : Opened} {outer : List Opened} {front tokens : List Token} :
    ReadsOpened outer front → inner.Reads tokens → ReadsOpened (inner :: outer) (front ++ tokens)

/-- The tokens since the last open bracket or comma. -/
inductive Expecting.Reads : Expecting → List Token → Prop
  | name {before : List Token} {segments : List TypeSegment} :
    ReadsBefore before segments → Expecting.Reads (.name segments) before
  | afterName {before : List Token} {segments : List TypeSegment} {first : Char}
    {rest : List Char} :
    ReadsBefore before segments → IsName first rest →
      Expecting.Reads (.afterName segments (.ofList (first :: rest)))
        (before ++ [.word first rest])
  | afterSegment {tokens : List Token} {segments : List TypeSegment} :
    DerivesPath tokens segments → Expecting.Reads (.afterSegment segments) tokens
  | afterType {tokens : List Token} {t : TypeRef} :
    Derives tokens t → Expecting.Reads (.afterType t) tokens
  | bracket {tokens : List Token} {t : TypeRef} :
    Derives tokens t → Expecting.Reads (.bracket t) (tokens ++ [.mark '['])

/-- The tokens that lead from the start to a state. -/
inductive Reading.Reads : Reading → List Token → Prop
  | mk {opened : List Opened} {e : Expecting} {front tokens : List Token} :
    ReadsOpened opened front → e.Reads tokens → Reading.Reads ⟨opened, e⟩ (front ++ tokens)

theorem Expecting.Reads.derives {e : Expecting} {tokens : List Token} {t : TypeRef}
    (h : e.Reads tokens) (ht : e.type? = some t) : Derives tokens t := by
  cases h with
  | name _ => cases ht
  | afterName hbefore hname =>
    cases ht
    exact .named (hbefore.concat (.plain hname))
  | afterSegment hpath =>
    cases ht
    exact .named hpath
  | afterType htype =>
    cases ht
    exact htype
  | bracket _ => cases ht

namespace Reading

variable {opened : List Opened} {front tokens : List Token} {t : TypeRef} {token : Token}
  {r next : Reading}

theorem reads_of_stepAfterType (hopened : ReadsOpened opened front) (ht : Derives tokens t)
    (h : stepAfterType opened t token = .ok next) : next.Reads (front ++ (tokens ++ [token])) := by
  rw [stepAfterType.eq_def] at h
  split at h
  · cases h
    exact .mk hopened (.afterType (.nullable ht))
  · cases h
    exact .mk hopened (.bracket ht)
  · split at h
    · cases h
    · rename_i inner outer
      cases hopened with
      | cons houter hinner =>
        obtain ⟨hbefore, hname, harguments⟩ := hinner
        split at h
        · -- a comma: the type becomes an argument of the innermost list
          cases h
          have hread := Opened.Reads.mk hbefore hname (.inr ⟨_, harguments.concat ht, rfl⟩)
          simpa using Reads.mk (.cons houter hread) (.name (.inl ⟨rfl, rfl⟩))
        · -- the list is closed and its segment complete
          cases h
          have hsegment := hbefore.concat (.generic hname (harguments.concat ht))
          simpa using Reads.mk houter (.afterSegment hsegment)
        · cases h

theorem reads_of_stepAfterSegment {segments : List TypeSegment}
    (hopened : ReadsOpened opened front) (hpath : DerivesPath tokens segments)
    (h : stepAfterSegment opened segments token = .ok next) :
    next.Reads (front ++ (tokens ++ [token])) := by
  rw [stepAfterSegment.eq_def] at h
  split at h
  · cases h
    exact .mk hopened (.name (.inr ⟨_, hpath, rfl⟩))
  · exact reads_of_stepAfterType hopened (.named hpath) h

/-- A step adds its token to the tokens that a state stands for. -/
theorem reads_of_step (hr : r.Reads tokens) (h : r.step token = .ok next)
    (hname : ∀ first rest, token = .word first rest → IsName first rest) :
    next.Reads (tokens ++ [token]) := by
  obtain ⟨hopened, hexpecting⟩ := hr
  rw [List.append_assoc]
  cases hexpecting with
  | name hbefore =>
    cases token with
    | word first rest =>
      cases h
      exact .mk hopened (.afterName hbefore (hname first rest rfl))
    | mark c => cases h
  | @afterName before segments first rest hbefore hword =>
    simp only [step] at h
    split at h
    · cases h
      have hread : Opened.Reads ⟨segments, .ofList (first :: rest), []⟩ _ :=
        .mk hbefore hword (.inl ⟨rfl, rfl⟩)
      simpa using Reads.mk (.cons hopened hread) (.name (.inl ⟨rfl, rfl⟩))
    · exact reads_of_stepAfterSegment hopened (hbefore.concat (.plain hword)) h
  | afterSegment hpath => exact reads_of_stepAfterSegment hopened hpath h
  | afterType ht => exact reads_of_stepAfterType hopened ht h
  | bracket ht =>
    simp only [step] at h
    split at h
    · cases h
      simpa using Reads.mk hopened (.afterType (.array ht))
    · cases h

theorem reads_of_run {rest : List Token} (hr : r.Reads tokens) (h : r.run rest = .ok next)
    (hname : ∀ first others, .word first others ∈ rest → IsName first others) :
    next.Reads (tokens ++ rest) := by
  induction rest generalizing r tokens with
  | nil =>
    cases h
    simpa using hr
  | cons token rest ih =>
    rw [run] at h
    split at h
    · rename_i middle hstep
      have hmiddle := reads_of_step hr hstep fun first others heq =>
        hname first others (heq ▸ List.mem_cons_self)
      have hnext := ih hmiddle h fun first others hmem =>
        hname first others (List.mem_cons_of_mem _ hmem)
      simpa using hnext
    · cases h

theorem type?_of_finish (h : r.finish = .ok t) : r.opened = [] ∧ r.expecting.type? = some t := by
  obtain ⟨opened, e⟩ := r
  cases opened with
  | nil => cases e <;> cases h <;> exact ⟨rfl, rfl⟩
  | cons inner outer => cases e <;> cases h

theorem expecting_of_step_word {first : Char} {rest : List Char}
    (h : r.step (.word first rest) = .ok next) :
    (∃ before, r.expecting = .name before) ∧
      ∃ before, next.expecting = .afterName before (.ofList (first :: rest)) := by
  obtain ⟨opened, e⟩ := r
  cases e with
  | name before =>
    cases h
    exact ⟨⟨before, rfl⟩, before, rfl⟩
  | afterName before last => cases opened <;> cases h
  | afterSegment segments => cases opened <;> cases h
  | afterType type => cases opened <;> cases h
  | bracket element => cases h

/-- In a run no name follows a name. -/
theorem separated_of_run {rest : List Token} (h : r.run rest = .ok next) :
    Token.Separated rest := by
  induction rest generalizing r with
  | nil => exact .nil
  | cons token rest ih =>
    rw [run] at h
    split at h
    · rename_i middle hstep
      refine List.isChain_cons.2 ⟨fun other hother hword => ?_, ih h⟩
      cases token with
      | mark c => cases hword
      | word first others =>
        cases rest with
        | nil => cases hother
        | cons token rest =>
          cases hother
          rw [run] at h
          cases other with
          | mark c => rfl
          | word first' others' =>
            split at h
            · rename_i hnext
              obtain ⟨_, before, hafter⟩ := expecting_of_step_word hstep
              obtain ⟨⟨before', hbefore'⟩, _⟩ := expecting_of_step_word hnext
              rw [hafter] at hbefore'
              cases hbefore'
            · cases h
    · cases h

end Reading

theorem derives_of_ofTokens {tokens : List Token} {t : TypeRef} (h : ofTokens tokens = .ok t)
    (hname : ∀ first rest, .word first rest ∈ tokens → IsName first rest) : Derives tokens t := by
  rw [ofTokens] at h
  split at h
  · rename_i last hrun
    obtain ⟨hopened, htype⟩ := Reading.type?_of_finish h
    have hlast := Reading.reads_of_run (.mk .nil (.name (.inl ⟨rfl, rfl⟩))) hrun hname
    obtain ⟨hnone, hexpecting⟩ := hlast
    cases hopened
    cases hnone
    simpa using hexpecting.derives htype
  · cases h

theorem separated_of_derives {tokens : List Token} {t : TypeRef} (h : Derives tokens t) :
    Token.Separated tokens := by
  obtain ⟨e, _, hrun⟩ := run_of_derives h
  exact Reading.separated_of_run (hrun [])

/-! ## Texts -/

/-- The text spells tokens that derive the type. -/
def DerivedFrom (t : TypeRef) (text : List Char) : Prop :=
  ∃ tokens, Spells tokens text ∧ Derives tokens t

theorem scan_eq_of_derives {tokens : List Token} {text : List Char} {t : TypeRef}
    (hspells : Spells tokens text) (h : Derives tokens t) : Token.scan text = tokens :=
  Token.scan_eq_of_spells hspells (isTerminal_of_derives h) (separated_of_derives h)

theorem read_eq_ok_iff {text : List Char} {t : TypeRef} :
    read text = .ok t ↔ t.DerivedFrom text := by
  constructor
  · intro h
    exact ⟨Token.scan text, Token.spells_scan text,
      derives_of_ofTokens h fun _ _ hmem => Token.isName_of_mem_scan hmem⟩
  · rintro ⟨tokens, hspells, h⟩
    rw [read, scan_eq_of_derives hspells h]
    exact ofTokens_of_derives h

theorem parse_eq_ok_iff {text : String} {t : TypeRef} :
    parse text = .ok t ↔ t.DerivedFrom text.toList := by
  rw [← read_eq_ok_iff, parse]
  cases read text.toList <;> simp

/-- Every text is read to the end. Reading it gives the type that it derives, or blames the text if
it derives none; and a text derives at most one type, from one list of tokens. -/
theorem parse_eq_ok_iff_derives (text : String) :
    (∀ t, parse text = .ok t ↔ ∃ tokens, Spells tokens text.toList ∧ Derives tokens t) ∧
      ((¬ ∃ t tokens, Spells tokens text.toList ∧ Derives tokens t) →
        ∃ blame : Blame, parse text = .error (.of (.invalidTypeRef text blame.message))) ∧
      ∀ tokens t tokens' t', Spells tokens text.toList → Derives tokens t →
        Spells tokens' text.toList → Derives tokens' t' → tokens = tokens' ∧ t = t' := by
  refine ⟨fun t => parse_eq_ok_iff, ?_, ?_⟩
  · intro hnone
    cases hread : read text.toList with
    | ok t => exact absurd ⟨t, read_eq_ok_iff.1 hread⟩ hnone
    | error blame => exact ⟨blame, by rw [parse, hread]⟩
  · intro tokens t tokens' t' hspells h hspells' h'
    have hok := parse_eq_ok_iff.2 ⟨tokens, hspells, h⟩
    have hok' := parse_eq_ok_iff.2 ⟨tokens', hspells', h'⟩
    exact ⟨(scan_eq_of_derives hspells h).symm.trans (scan_eq_of_derives hspells' h'),
      Except.ok.inj (hok.symm.trans hok')⟩

end TypeRef
end CaseUnion
