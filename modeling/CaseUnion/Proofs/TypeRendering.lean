import CaseUnion.Proofs.TypeGrammar

/-!
# Rendered type references

A type reference is well formed if every name in it, at any depth, has a segment and is made of
identifiers. These are the references that are read from texts (`wellFormed_of_derives`), and the
normal form of each of them derives it (`derivedFrom_chars`). So rendering and reading are inverse:
`parse_render`.
-/

namespace CaseUnion

mutual

inductive TypeRef.WellFormed : TypeRef → Prop
  | named {segments : List TypeSegment} :
    segments ≠ [] → (∀ s ∈ segments, s.WellFormed) → TypeRef.WellFormed (.named segments)
  | array {t : TypeRef} : t.WellFormed → TypeRef.WellFormed (.array t)
  | nullable {t : TypeRef} : t.WellFormed → TypeRef.WellFormed (.nullable t)

inductive TypeSegment.WellFormed : TypeSegment → Prop
  | mk {first : Char} {rest : List Char} {arguments : List TypeRef} :
    IsName first rest → (∀ a ∈ arguments, a.WellFormed) →
      TypeSegment.WellFormed (.mk (.ofList (first :: rest)) arguments)

end

theorem segmentsChars_concat {front : List TypeSegment} (h : front ≠ []) (s : TypeSegment) :
    segmentsChars (front ++ [s]) = segmentsChars front ++ '.' :: s.chars := by
  induction front with
  | nil => exact absurd rfl h
  | cons first rest ih =>
    cases rest with
    | nil => simp [segmentsChars]
    | cons second rest =>
      have hrest := ih (List.cons_ne_nil second rest)
      simp only [List.cons_append, segmentsChars] at hrest ⊢
      rw [hrest]
      simp

theorem argumentsChars_concat (front : List TypeRef) (t : TypeRef) :
    argumentsChars (front ++ [t]) = argumentsChars front ++ ',' :: ' ' :: t.chars := by
  induction front with
  | nil => simp [argumentsChars]
  | cons first rest ih => simp [argumentsChars, ih]

namespace TypeRef

open Token (Spells)

mutual

theorem wellFormed_of_derives : ∀ {tokens t}, Derives tokens t → t.WellFormed
  | _, _, .named h => .named (wellFormed_of_derivesPath h).1 (wellFormed_of_derivesPath h).2
  | _, _, .array h => .array (wellFormed_of_derives h)
  | _, _, .nullable h => .nullable (wellFormed_of_derives h)

theorem wellFormed_of_derivesPath : ∀ {tokens segments}, DerivesPath tokens segments →
    segments ≠ [] ∧ ∀ s ∈ segments, s.WellFormed
  | _, _, .one h =>
    ⟨List.cons_ne_nil _ _, List.forall_mem_singleton.2 (wellFormed_of_derivesSegment h)⟩
  | _, _, .more h hlast =>
    ⟨List.append_ne_nil_of_right_ne_nil _ (List.cons_ne_nil _ _),
      List.forall_mem_append.2 ⟨(wellFormed_of_derivesPath h).2,
        List.forall_mem_singleton.2 (wellFormed_of_derivesSegment hlast)⟩⟩

theorem wellFormed_of_derivesSegment : ∀ {tokens s}, DerivesSegment tokens s → s.WellFormed
  | _, _, .plain hname => .mk hname (List.forall_mem_nil _)
  | _, _, .generic hname h => .mk hname (wellFormed_of_derivesArguments h)

theorem wellFormed_of_derivesArguments : ∀ {tokens arguments},
    DerivesArguments tokens arguments → ∀ a ∈ arguments, a.WellFormed
  | _, _, .one h => List.forall_mem_singleton.2 (wellFormed_of_derives h)
  | _, _, .more h hlast =>
    List.forall_mem_append.2 ⟨wellFormed_of_derivesArguments h,
      List.forall_mem_singleton.2 (wellFormed_of_derives hlast)⟩

end

/-- Segments that derive from their own texts do so with dots between these. -/
theorem derivesPath_chars {segments : List TypeSegment} (hne : segments ≠ [])
    (h : ∀ s ∈ segments, ∃ tokens, Spells tokens s.chars ∧ DerivesSegment tokens s) :
    ∃ tokens, Spells tokens (segmentsChars segments) ∧ DerivesPath tokens segments := by
  induction segments using List.reverseRecOn with
  | nil => exact absurd rfl hne
  | append_singleton front s ih =>
    obtain ⟨tokens, hspells, hs⟩ := h s (by simp)
    by_cases hfront : front = []
    · subst hfront
      exact ⟨tokens, hspells, .one hs⟩
    · obtain ⟨tokens', hspells', hpath⟩ :=
        ih hfront fun other hother => h other (List.mem_append_left _ hother)
      refine ⟨tokens' ++ .mark '.' :: tokens, ?_, .more hpath hs⟩
      rw [segmentsChars_concat hfront]
      exact hspells'.append (.token (t := .mark '.') hspells)

/-- Arguments that derive from their own texts do so with commas and blanks between these. -/
theorem derivesArguments_chars {first : TypeRef} {rest : List TypeRef}
    (h : ∀ a ∈ first :: rest, a.DerivedFrom a.chars) :
    ∃ tokens, Spells tokens (first.chars ++ argumentsChars rest) ∧
      DerivesArguments tokens (first :: rest) := by
  induction rest using List.reverseRecOn with
  | nil =>
    obtain ⟨tokens, hspells, hfirst⟩ := h first List.mem_cons_self
    refine ⟨tokens, ?_, .one hfirst⟩
    rwa [argumentsChars, List.append_nil]
  | append_singleton front t ih =>
    obtain ⟨tokens, hspells, ht⟩ := h t (by simp)
    obtain ⟨tokens', hspells', harguments⟩ := ih fun a ha => h a (by
      rcases List.mem_cons.1 ha with rfl | ha
      · exact List.mem_cons_self
      · exact List.mem_cons_of_mem _ (List.mem_append_left _ ha))
    refine ⟨tokens' ++ .mark ',' :: tokens, ?_, .more harguments ht⟩
    rw [argumentsChars_concat, ← List.append_assoc]
    exact hspells'.append (.token (t := .mark ',') (.blank (by decide) hspells))

mutual

/-- The normal form of a well-formed reference derives it. -/
theorem derivedFrom_chars : ∀ {t : TypeRef}, t.WellFormed → t.DerivedFrom t.chars
  | _, .named hne h => by
    obtain ⟨tokens, hspells, hpath⟩ :=
      derivesPath_chars hne fun s hs => derivesSegment_chars (h s hs)
    exact ⟨tokens, by rwa [chars], .named hpath⟩
  | _, .array h => by
    obtain ⟨tokens, hspells, ht⟩ := derivedFrom_chars h
    refine ⟨tokens ++ [.mark '[', .mark ']'], ?_, .array ht⟩
    rw [chars]
    exact hspells.append (.token (t := .mark '[') (Token.spells_singleton (.mark ']')))
  | _, .nullable h => by
    obtain ⟨tokens, hspells, ht⟩ := derivedFrom_chars h
    refine ⟨tokens ++ [.mark '?'], ?_, .nullable ht⟩
    rw [chars]
    exact hspells.append (Token.spells_singleton (.mark '?'))

theorem derivesSegment_chars : ∀ {s : TypeSegment}, s.WellFormed →
    ∃ tokens, Spells tokens s.chars ∧ DerivesSegment tokens s
  | _, @TypeSegment.WellFormed.mk first rest [] hname _ => by
    refine ⟨[.word first rest], ?_, .plain hname⟩
    rw [TypeSegment.chars, String.toList_ofList]
    exact Token.spells_singleton (.word first rest)
  | _, @TypeSegment.WellFormed.mk first rest (argument :: arguments) hname h => by
    obtain ⟨tokens, hspells, harguments⟩ :=
      derivesArguments_chars fun a ha => derivedFrom_chars (h a ha)
    refine ⟨.word first rest :: .mark '<' :: (tokens ++ [.mark '>']), ?_,
      .generic hname harguments⟩
    have hclosed := hspells.append (Token.spells_singleton (.mark '>'))
    rw [List.append_assoc] at hclosed
    rw [TypeSegment.chars, String.toList_ofList]
    exact .token (t := .word first rest) (.token (t := .mark '<') hclosed)

end

theorem parse_render_of_wellFormed {t : TypeRef} (h : t.WellFormed) : parse t.render = .ok t := by
  rw [parse_eq_ok_iff, render, String.toList_ofList]
  exact derivedFrom_chars h

theorem wellFormed_of_parse {text : String} {t : TypeRef} (h : parse text = .ok t) :
    t.WellFormed := by
  obtain ⟨_, _, htokens⟩ := parse_eq_ok_iff.1 h
  exact wellFormed_of_derives htokens

/-- Well-formed references are those that are read from texts. Each is read from its normal form,
which belongs to no other of them, so rendering what was read and reading it again changes
nothing. -/
theorem parse_render :
    (∀ t : TypeRef, t.WellFormed → parse t.render = .ok t) ∧
      (∀ text t, parse text = .ok t → t.WellFormed) ∧
      (∀ text t, parse text = .ok t →
        parse t.render = .ok t ∧ (parse t.render).map render = .ok t.render) ∧
      ∀ t u : TypeRef, t.WellFormed → u.WellFormed → t.render = u.render → t = u := by
  refine ⟨fun t h => parse_render_of_wellFormed h, fun text t h => wellFormed_of_parse h, ?_, ?_⟩
  · intro text t h
    have hagain := parse_render_of_wellFormed (wellFormed_of_parse h)
    exact ⟨hagain, by rw [hagain]; rfl⟩
  · intro t u ht hu heq
    have hread := parse_render_of_wellFormed ht
    rw [heq, parse_render_of_wellFormed hu] at hread
    exact (Except.ok.inj hread).symm

example : ((parse " System.Func< int ,T >?[] ").map render).toOption =
    some "System.Func<int, T>?[]" := by
  decide +kernel

end TypeRef
end CaseUnion
