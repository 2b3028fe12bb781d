import Mathlib.Data.List.Induction
import CaseUnion.Proofs.Dispatching

/-!
# Refused handlers

A registration is refused if its name is no case of the union, or if the case was registered before
(`Refuses`). The first refused registration decides the failure of a dispatch, whatever follows it
(`problem_register_of_firstRefused`). Where all registrations are accepted, the registered names
decide alone whether a dispatch fails: over all cases it does if a case is left out
(`run_eq_error_iff`), and with a default if there are fewer than two cases
(`runWithDefault_eq_error_iff`). So no failure depends on what the handlers are
(`error_iff_of_names_eq`).

Handlers may act in any monad. `Dispatch.perform` then does what `Dispatch.run` ends with
(`perform_eq`): the action of one handler, or where it fails, none. So a dispatch fails with handlers
that act where it fails with the actions as mere results, and it leaves the state as it was
(`enact_run_eq_error_iff`).
-/

namespace CaseUnion

namespace Dispatch

/-- Every name is a case that was not registered before. -/
def Accepts (cases names : List String) : Prop :=
  ∀ before name after, names = before ++ name :: after → name ∈ cases ∧ name ∉ before

/-- Why the registration of a name is refused after those of other names. -/
inductive Refuses (union : String) (cases before : List String) (name : String) : Cause → Prop
  | unknown : name ∉ cases → Refuses union cases before name (.unknownCase union name)
  | repeated : name ∈ cases → name ∈ before →
      Refuses union cases before name (.duplicateHandler union name)

/-- The first registration that is not accepted is refused for the given cause. -/
def FirstRefused (union : String) (cases names : List String) (cause : Cause) : Prop :=
  ∃ before name after, names = before ++ name :: after ∧ Accepts cases before ∧
    Refuses union cases before name cause

section
variable {union : String} {cases before names : List String} {name : String} {cause : Cause}

theorem Refuses.code_eq (h : Refuses union cases before name cause) :
    cause.code = ⟨.dispatch, 1⟩ ∨ cause.code = ⟨.dispatch, 5⟩ := by
  cases h with
  | unknown _ => exact .inl rfl
  | repeated _ _ => exact .inr rfl

theorem exists_refuses (union : String) (h : ¬ (name ∈ cases ∧ name ∉ before)) :
    ∃ cause, Refuses union cases before name cause := by
  by_cases hname : name ∈ cases
  · exact ⟨_, .repeated hname (not_not.1 fun hbefore => h ⟨hname, hbefore⟩)⟩
  · exact ⟨_, .unknown hname⟩

theorem accepts_concat_iff : Accepts cases (names ++ [name]) ↔
    Accepts cases names ∧ name ∈ cases ∧ name ∉ names := by
  constructor
  · intro h
    refine ⟨fun before other after hsplit => ?_, h names name [] rfl⟩
    exact h before other (after ++ [name]) (by rw [hsplit, List.append_assoc, List.cons_append])
  · rintro ⟨hnames, hlast⟩ before other after hsplit
    rcases List.eq_nil_or_concat after with rfl | ⟨after, last, rfl⟩
    · obtain ⟨rfl, heq⟩ := List.append_inj' hsplit rfl
      cases heq
      exact hlast
    · have hsplit' : names ++ [name] = (before ++ other :: after) ++ [last] := by
        rw [hsplit, List.concat_eq_append, List.append_assoc, List.cons_append]
      exact hnames before other after (List.append_inj' hsplit' rfl).1

theorem accepts_iff : Accepts cases names ↔ names.Nodup ∧ ∀ name ∈ names, name ∈ cases := by
  induction names using List.reverseRecOn with
  | nil => simp [Accepts]
  | append_singleton names name ih =>
    rw [accepts_concat_iff, ih, List.nodup_append, List.forall_mem_append,
      List.forall_mem_singleton]
    simp only [List.nodup_singleton, true_and, List.mem_singleton, forall_eq]
    constructor
    · rintro ⟨⟨hnodup, hknown⟩, hname, hfresh⟩
      exact ⟨⟨hnodup, fun other hother heq => hfresh (heq ▸ hother)⟩, hknown, hname⟩
    · rintro ⟨⟨hnodup, hfresh⟩, hknown, hname⟩
      exact ⟨⟨hnodup, hknown⟩, hname, fun hmem => hfresh name hmem rfl⟩

/-- Where not all registrations are accepted, there is a first one that is refused. -/
theorem exists_firstRefused (union : String) (h : ¬ Accepts cases names) :
    ∃ cause, FirstRefused union cases names cause := by
  induction names using List.reverseRecOn with
  | nil => exact absurd (accepts_iff.2 (by simp)) h
  | append_singleton names name ih =>
    by_cases hnames : Accepts cases names
    · obtain ⟨cause, hcause⟩ := exists_refuses union fun hname =>
        h (accepts_concat_iff.2 ⟨hnames, hname⟩)
      exact ⟨cause, names, name, [], rfl, hnames, hcause⟩
    · obtain ⟨cause, before, other, after, hsplit, haccepts, hrefuses⟩ := ih hnames
      refine ⟨cause, before, other, after ++ [name], ?_, haccepts, hrefuses⟩
      rw [hsplit, List.append_assoc, List.cons_append]

end

/-! ### Registration -/

section
variable {ρ : Type} {v : UnionValue} {handlers : List (String × (List Value → ρ))} {cause : Cause}

theorem register_append (d : Dispatch ρ) (handlers more : List (String × (List Value → ρ))) :
    d.register (handlers ++ more) = (d.register handlers).register more := by
  rw [register, List.foldl_append, ← register, ← register]

theorem on_of_problem {d : Dispatch ρ} (h : d.problem = some cause) (c : String)
    (handler : List Value → ρ) : d.on c handler = d := by
  rw [on, h]

theorem register_of_problem {d : Dispatch ρ} (h : d.problem = some cause) :
    d.register handlers = d := by
  induction handlers with
  | nil => rfl
  | cons handler rest ih => rw [register, List.foldl_cons, on_of_problem h, ← register, ih]

theorem problem_on_of_refuses {d : Dispatch ρ} {before : List String} {name : String}
    (hproblem : d.problem = none)
    (hhandlers : ∀ tag, d.value.shape.position? name = some tag →
      ((d.handler? tag).isSome ↔ name ∈ before))
    (h : Refuses d.value.shape.name (d.value.shape.cases.map (·.1)) before name cause)
    (handler : List Value → ρ) : (d.on name handler).problem = some cause := by
  cases h with
  | unknown hunknown =>
    have hposition := Shape.position?_eq_none_iff.2 hunknown
    rw [on, hproblem]
    simp only [hposition]
  | repeated hname hbefore =>
    obtain ⟨tag, hposition⟩ : ∃ tag, d.value.shape.position? name = some tag := by
      rw [← Option.ne_none_iff_exists', Ne, Shape.position?_eq_none_iff, not_not]
      exact hname
    have hregistered : (d.handler? tag).isSome := (hhandlers tag hposition).2 hbefore
    rw [on, hproblem]
    simp only [hposition, if_pos hregistered]

theorem isSome_lookup_iff {name : String} :
    (handlers.lookup name).isSome ↔ name ∈ handlers.map (·.1) := by
  rw [← not_iff_not, Option.not_isSome_iff_eq_none, List.lookup_eq_none_iff, List.mem_map, not_exists]
  simp only [bne_iff_ne, ne_eq, not_and]
  exact forall₂_congr fun _ _ => not_congr eq_comm

/-- Accepted handlers leave no problem, and the cases with a handler are those of their names. -/
theorem register_of_accepts (h : Accepts (v.shape.cases.map (·.1)) (handlers.map (·.1))) :
    ((begin v).register handlers).problem = none ∧
      ∀ name tag, v.shape.position? name = some tag →
        ((((begin v).register handlers).handler? tag).isSome ↔ name ∈ handlers.map (·.1)) := by
  obtain ⟨hnodup, hknown⟩ := accepts_iff.1 h
  obtain ⟨hproblem, hfound⟩ := handler?_register_begin hnodup fun p hp =>
    hknown p.1 (List.mem_map_of_mem hp)
  refine ⟨hproblem, fun name tag htag => ?_⟩
  rw [hfound name tag htag, isSome_lookup_iff]

/-- The first refused registration leaves its cause, and nothing after it matters. -/
theorem problem_register_of_firstRefused
    (h : FirstRefused v.shape.name (v.shape.cases.map (·.1)) (handlers.map (·.1)) cause) :
    ((begin v).register handlers).problem = some cause := by
  obtain ⟨_, _, _, hsplit, haccepts, hrefuses⟩ := h
  obtain ⟨before, rest, rfl, rfl, hrest⟩ := List.map_eq_append_iff.1 hsplit
  obtain ⟨⟨name, handler⟩, after, rfl, rfl, rfl⟩ := List.map_eq_cons_iff.1 hrest
  obtain ⟨hproblem, hfound⟩ := register_of_accepts haccepts
  have hvalue : ((begin v).register before).value = v := value_register _ _
  have hlast : (((begin v).register before).on name handler).problem = some cause := by
    refine problem_on_of_refuses hproblem (fun tag htag => hfound name tag ?_) ?_ handler
    · rwa [hvalue] at htag
    · rwa [hvalue]
  rw [register_append, register, List.foldl_cons, ← register, register_of_problem hlast, hlast]

end

/-! ### Outcomes -/

section
variable {ρ : Type} {u : UnionType} {c : String} {args : List Value} {v : UnionValue}
  {handlers : List (String × (List Value → ρ))} {f : Failure}

/-- The cases that no handler is registered for, in declared order. -/
def leftOut (u : UnionType) (names : List String) : List String :=
  (u.cases.map (·.name)).filter (· ∉ names)

theorem leftOut_eq_nil_iff {names : List String} :
    leftOut u names = [] ↔ ∀ k ∈ u.cases, k.name ∈ names := by
  simp [leftOut]

theorem cases_of_construct (hv : (Shape.ofUnion u).construct c args = .ok v) :
    v.shape.name = u.qualified ∧ v.shape.cases.map (·.1) = u.cases.map (·.name) := by
  rw [Shape.shape_of_construct hv, Shape.names_ofUnion]
  exact ⟨rfl, rfl⟩

theorem run_of_problem {d : Dispatch ρ} {cause : Cause} (h : d.problem = some cause) :
    d.run = .error (.of cause) := by
  rw [run_eq, h]

theorem run_of_missing {d : Dispatch ρ} (hproblem : d.problem = none) (h : d.missing ≠ []) :
    d.run = .error (.of (.missingHandlers d.value.shape.name d.missing)) := by
  rw [run_eq, hproblem]
  exact if_neg (by simpa using h)

theorem runWithDefault_of_problem {d : Dispatch ρ} {cause : Cause} (h : d.problem = some cause)
    (default : ρ) : d.runWithDefault default = .error (.of cause) := by
  rw [runWithDefault_eq, h]

theorem missing_eq_filter {d : Dispatch ρ} (names : List String)
    (hdistinct : d.value.shape.Distinct)
    (h : ∀ name tag, d.value.shape.position? name = some tag →
      ((d.handler? tag).isSome ↔ name ∈ names)) :
    d.missing = (d.value.shape.cases.map (·.1)).filter (· ∉ names) := by
  have hnames : d.value.shape.cases.map (·.1) = d.value.shape.cases.zipIdx.map (·.1.1) := by
    conv_lhs => rw [← List.zipIdx_map_fst 0 d.value.shape.cases, List.map_map]
    rfl
  rw [missing, hnames, List.filter_map]
  refine congrArg (List.map _) (List.filter_congr fun x hx => ?_)
  have hposition : d.value.shape.position? x.1.1 = some x.2 := by
    rw [Shape.position?_eq_some_iff hdistinct, List.getElem?_map, List.mem_zipIdx_iff_getElem?.1 hx]
    rfl
  rw [Bool.eq_iff_iff, Option.isNone_iff_eq_none, ← Option.not_isSome_iff_eq_none, h _ _ hposition]
  exact decide_eq_true_iff.symm

section
variable (hu : (u.cases.map (·.name)).Nodup) (hv : (Shape.ofUnion u).construct c args = .ok v)
include hv

theorem failures_of_firstRefused {cause : Cause}
    (h : FirstRefused u.qualified (u.cases.map (·.name)) (handlers.map (·.1)) cause) (default : ρ) :
    ((begin v).register handlers).run = .error (.of cause) ∧
      ((begin v).register handlers).runWithDefault default = .error (.of cause) := by
  obtain ⟨hname, hcases⟩ := cases_of_construct hv
  rw [← hname, ← hcases] at h
  have hproblem := problem_register_of_firstRefused h
  exact ⟨run_of_problem hproblem, runWithDefault_of_problem hproblem default⟩

include hu

theorem missing_register (h : Accepts (u.cases.map (·.name)) (handlers.map (·.1))) :
    ((begin v).register handlers).missing = leftOut u (handlers.map (·.1)) := by
  obtain ⟨-, hcases⟩ := cases_of_construct hv
  have hvalue : ((begin v).register handlers).value = v := value_register _ _
  obtain ⟨-, hfound⟩ := register_of_accepts (v := v) (hcases ▸ h)
  rw [missing_eq_filter (handlers.map (·.1)), hvalue, hcases, leftOut]
  · rwa [hvalue, Shape.Distinct, hcases]
  · rwa [hvalue]

/-- Over all cases, accepted handlers fail only if a case is left out. -/
theorem run_eq_error_iff (h : Accepts (u.cases.map (·.name)) (handlers.map (·.1))) :
    ((begin v).register handlers).run = .error f ↔
      leftOut u (handlers.map (·.1)) ≠ [] ∧
        f = .of (.missingHandlers u.qualified (leftOut u (handlers.map (·.1)))) := by
  obtain ⟨hname, hcases⟩ := cases_of_construct hv
  have hvalue : ((begin v).register handlers).value = v := value_register _ _
  obtain ⟨hproblem, hfound⟩ := register_of_accepts (v := v) (hcases ▸ h)
  have hmissing := missing_register hu hv h
  by_cases hnone : leftOut u (handlers.map (·.1)) = []
  · have hposition : v.shape.position? c = some v.tag := by
      rw [Shape.shape_of_construct hv, Shape.position?_of_construct hv]
    have hcase : c ∈ handlers.map (·.1) := by
      have hmem := List.mem_of_getElem? (Shape.getElem?_of_position? hposition)
      rw [hcases, List.mem_map] at hmem
      obtain ⟨k, hk, rfl⟩ := hmem
      exact leftOut_eq_nil_iff.1 hnone k hk
    obtain ⟨handler, hhandler⟩ := Option.isSome_iff_exists.1 ((hfound c v.tag hposition).2 hcase)
    rw [run_of_handler? hproblem (hmissing.trans hnone) (by rwa [hvalue])]
    simp [hnone]
  · rw [run_of_missing hproblem (hmissing ▸ hnone), hvalue, hname, hmissing, Except.error.injEq]
    exact ⟨fun heq => ⟨hnone, heq.symm⟩, fun heq => heq.2.symm⟩

omit hu

/-- With a default, accepted handlers fail only if there are not two cases. -/
theorem runWithDefault_eq_error_iff (h : Accepts (u.cases.map (·.name)) (handlers.map (·.1)))
    (default : ρ) :
    ((begin v).register handlers).runWithDefault default = .error f ↔
      u.cases.length ≤ 1 ∧ f = .of (.defaultUnavailable u.qualified) := by
  obtain ⟨hname, hcases⟩ := cases_of_construct hv
  have hvalue : ((begin v).register handlers).value = v := value_register _ _
  obtain ⟨hproblem, -⟩ := register_of_accepts (v := v) (hcases ▸ h)
  have hlength : v.shape.cases.length = u.cases.length := by
    simpa using congrArg List.length hcases
  by_cases hsingle : u.cases.length ≤ 1
  · rw [runWithDefault_eq, hproblem]
    simp only [hvalue, hlength, if_pos hsingle, hname, Except.error.injEq]
    exact ⟨fun heq => ⟨hsingle, heq.symm⟩, fun heq => heq.2.symm⟩
  · rw [runWithDefault_of_handler? default hproblem (by rw [hvalue, hlength]; omega)]
    simp [hsingle]

include hu

/-- Handlers with the same names fail alike, whatever they are. -/
theorem error_iff_of_names_eq {ρ' : Type} {handlers' : List (String × (List Value → ρ'))}
    (hnames : handlers.map (·.1) = handlers'.map (·.1)) (default : ρ) (default' : ρ') :
    (((begin v).register handlers).run = .error f ↔
        ((begin v).register handlers').run = .error f) ∧
      (((begin v).register handlers).runWithDefault default = .error f ↔
        ((begin v).register handlers').runWithDefault default' = .error f) := by
  by_cases h : Accepts (u.cases.map (·.name)) (handlers.map (·.1))
  · rw [run_eq_error_iff hu hv h, runWithDefault_eq_error_iff hv h]
    rw [hnames] at h ⊢
    rw [run_eq_error_iff hu hv h, runWithDefault_eq_error_iff hv h]
    exact ⟨Iff.rfl, Iff.rfl⟩
  · obtain ⟨cause, hfirst⟩ := exists_firstRefused u.qualified h
    obtain ⟨hrun, hdefault⟩ := failures_of_firstRefused hv hfirst default
    rw [hnames] at hfirst
    obtain ⟨hrun', hdefault'⟩ := failures_of_firstRefused hv hfirst default'
    rw [hrun, hrun', hdefault, hdefault', Except.error.injEq, Except.error.injEq]
    exact ⟨Iff.rfl, Iff.rfl⟩

end

end

/-! ### Handlers that act -/

section
variable {m : Type → Type} [Monad m] {ρ : Type}

/-- The action of the handler that is called, and no action where none is. -/
def enact (outcome : Except Failure (m ρ)) : m (Except Failure ρ) :=
  match outcome with
  | .ok action => Except.ok <$> action
  | .error f => pure (.error f)

variable [LawfulMonad m]

theorem perform_eq (d : Dispatch (m ρ)) : d.perform = enact d.run := by
  rw [run_eq, perform]
  cases d.problem with
  | some cause => rfl
  | none =>
    cases d.missing.isEmpty with
    | false => rfl
    | true =>
      cases d.handler? d.value.tag with
      | none => rfl
      | some handler => exact bind_pure_comp Except.ok (handler d.value.arguments)

theorem performWithDefault_eq (d : Dispatch (m ρ)) (default : m ρ) :
    d.performWithDefault default = enact (d.runWithDefault default) := by
  rw [runWithDefault_eq, performWithDefault]
  cases d.problem with
  | some cause => rfl
  | none =>
    by_cases hfew : d.value.shape.cases.length ≤ 1
    · simp only [if_pos hfew]
      rfl
    · simp only [if_neg hfew]
      cases d.handler? d.value.tag with
      | none => exact bind_pure_comp Except.ok default
      | some handler => exact bind_pure_comp Except.ok (handler d.value.arguments)

end

theorem enact_run_eq_error_iff {σ ρ : Type} {outcome : Except Failure (StateM σ ρ)} {f : Failure}
    {s s' : σ} : (enact outcome).run s = (.error f, s') ↔ outcome = .error f ∧ s' = s := by
  cases outcome with
  | ok action =>
    constructor
    · intro h
      cases congrArg Prod.fst h
    · rintro ⟨h, -⟩
      cases h
  | error g =>
    constructor
    · intro h
      cases h
      exact ⟨rfl, rfl⟩
    · rintro ⟨h, rfl⟩
      cases h
      rfl

end Dispatch

/-- What dispatch over a value does with a list of handlers: the first refused registration is the
failure of both ways to dispatch. If none is refused, dispatch over all cases fails for the cases
that are left out, and dispatch with a default fails for a union with fewer than two cases. A failure
depends on the names alone. Where handlers and the default act, a dispatch that fails performs no
action: neither a handler nor the default is called. -/
structure UnionValue.RefusesHandlers (v : UnionValue) (u : UnionType) : Prop where
  refused : ∀ {ρ : Type} (handlers : List (String × (List Value → ρ))) (default : ρ),
    ¬ Dispatch.Accepts (u.cases.map (·.name)) (handlers.map (·.1)) →
      ∃ cause, Dispatch.FirstRefused u.qualified (u.cases.map (·.name)) (handlers.map (·.1)) cause ∧
        (cause.code = ⟨.dispatch, 1⟩ ∨ cause.code = ⟨.dispatch, 5⟩) ∧
        ((Dispatch.begin v).register handlers).run = .error (.of cause) ∧
        ((Dispatch.begin v).register handlers).runWithDefault default = .error (.of cause)
  run : ∀ {ρ : Type} (handlers : List (String × (List Value → ρ))),
    Dispatch.Accepts (u.cases.map (·.name)) (handlers.map (·.1)) →
      ((∃ f, ((Dispatch.begin v).register handlers).run = .error f) ↔
        ∃ k ∈ u.cases, k.name ∉ handlers.map (·.1)) ∧
      ∀ f, ((Dispatch.begin v).register handlers).run = .error f →
        f = .of (.missingHandlers u.qualified
          ((u.cases.map (·.name)).filter (· ∉ handlers.map (·.1)))) ∧ f.code = ⟨.dispatch, 3⟩
  withDefault : ∀ {ρ : Type} (handlers : List (String × (List Value → ρ))) (default : ρ),
    Dispatch.Accepts (u.cases.map (·.name)) (handlers.map (·.1)) →
      ((∃ f, ((Dispatch.begin v).register handlers).runWithDefault default = .error f) ↔
        u.cases.length ≤ 1) ∧
      ∀ f, ((Dispatch.begin v).register handlers).runWithDefault default = .error f →
        f = .of (.defaultUnavailable u.qualified) ∧ f.code = ⟨.dispatch, 4⟩
  blind : ∀ {ρ ρ' : Type} (handlers : List (String × (List Value → ρ)))
    (handlers' : List (String × (List Value → ρ'))) (default : ρ) (default' : ρ') (f : Failure),
    handlers.map (·.1) = handlers'.map (·.1) →
      (((Dispatch.begin v).register handlers).run = .error f ↔
        ((Dispatch.begin v).register handlers').run = .error f) ∧
      (((Dispatch.begin v).register handlers).runWithDefault default = .error f ↔
        ((Dispatch.begin v).register handlers').runWithDefault default' = .error f)
  quiet : ∀ {m : Type → Type} [Monad m] [LawfulMonad m] {ρ : Type}
    (handlers : List (String × (List Value → m ρ))) (default : m ρ) (f : Failure),
    (((Dispatch.begin v).register handlers).run = .error f →
        ((Dispatch.begin v).register handlers).perform = pure (.error f)) ∧
      (((Dispatch.begin v).register handlers).runWithDefault default = .error f →
        ((Dispatch.begin v).register handlers).performWithDefault default = pure (.error f))
  unchanged : ∀ {σ ρ : Type} (handlers : List (String × (List Value → StateM σ ρ)))
    (default : StateM σ ρ) (f : Failure) (s s' : σ),
    ((((Dispatch.begin v).register handlers).perform).run s = (.error f, s') ↔
        ((Dispatch.begin v).register handlers).run = .error f ∧ s' = s) ∧
      ((((Dispatch.begin v).register handlers).performWithDefault default).run s = (.error f, s') ↔
        ((Dispatch.begin v).register handlers).runWithDefault default = .error f ∧ s' = s)

/-- A dispatch fails for the first handler that is refused. If none is, it fails for the cases without
a handler, or if it has a default, for want of a second case. -/
theorem UnionType.dispatch_refuses (u : UnionType) (hu : (u.cases.map (·.name)).Nodup) (c : String)
    (args : List Value) (v : UnionValue) (hv : (Shape.ofUnion u).construct c args = .ok v) :
    v.RefusesHandlers u := by
  constructor
  case refused =>
    intro ρ handlers default h
    obtain ⟨cause, hfirst⟩ := Dispatch.exists_firstRefused u.qualified h
    obtain ⟨_, _, _, -, -, hrefuses⟩ := id hfirst
    exact ⟨cause, hfirst, hrefuses.code_eq, Dispatch.failures_of_firstRefused hv hfirst default⟩
  case run =>
    intro ρ handlers h
    simp only [Dispatch.run_eq_error_iff hu hv h]
    constructor
    · rw [exists_and_left, Ne, Dispatch.leftOut_eq_nil_iff]
      simp
    · rintro f ⟨-, rfl⟩
      exact ⟨rfl, rfl⟩
  case withDefault =>
    intro ρ handlers default h
    simp only [Dispatch.runWithDefault_eq_error_iff hv h]
    constructor
    · rw [exists_and_left]
      simp
    · rintro f ⟨-, rfl⟩
      exact ⟨rfl, rfl⟩
  case blind =>
    intro ρ ρ' handlers handlers' default default' f hnames
    exact Dispatch.error_iff_of_names_eq hu hv hnames default default'
  case quiet =>
    intro m _ _ ρ handlers default f
    rw [Dispatch.perform_eq, Dispatch.performWithDefault_eq]
    constructor
    · intro h
      rw [h, Dispatch.enact]
    · intro h
      rw [h, Dispatch.enact]
  case unchanged =>
    intro σ ρ handlers default f s s'
    rw [Dispatch.perform_eq, Dispatch.performWithDefault_eq]
    exact ⟨Dispatch.enact_run_eq_error_iff, Dispatch.enact_run_eq_error_iff⟩

/-- A case registered twice in front of an unknown name, and a case left out by a handler that would
count its calls. -/
theorem UnionType.dispatch_refuses_emptyOrPair :
    ∃ v, (Shape.ofUnion emptyOrPair).construct "Empty" [] = .ok v ∧
      (∃ cause, Dispatch.FirstRefused "Shape" ["Empty", "Pair"] ["Pair", "Pair", "Zero"] cause ∧
        ((Dispatch.begin v).register
            [("Pair", fun args => args.length), ("Pair", fun _ => 7), ("Zero", fun _ => 0)]).run =
          .error (.of cause) ∧
        cause = .duplicateHandler "Shape" "Pair") ∧
      ((Dispatch.begin v).register [("Pair", fun args => args.length)]).run =
        .error (.of (.missingHandlers "Shape" ["Empty"])) ∧
      (((Dispatch.begin v).register
            [("Pair", fun _ => (modify (· + 1) : StateM Nat Unit))]).perform).run 0 =
        (.error (.of (.missingHandlers "Shape" ["Empty"])), 0) := by
  have h := dispatch_refuses emptyOrPair (by decide) "Empty" []
    ⟨Shape.ofUnion emptyOrPair, 0, none⟩ rfl
  refine ⟨⟨Shape.ofUnion emptyOrPair, 0, none⟩, rfl, ?_, ?_⟩
  · obtain ⟨cause, hfirst, -, hrun, -⟩ := h.refused
      [("Pair", fun args => args.length), ("Pair", fun _ => 7), ("Zero", fun _ => 0)] 1
      (by rw [Dispatch.accepts_iff]; decide)
    refine ⟨cause, hfirst, hrun, ?_⟩
    cases hrun
    rfl
  · have hmissing : ∀ {ρ : Type} (handler : List Value → ρ),
        ((Dispatch.begin ⟨Shape.ofUnion emptyOrPair, 0, none⟩).register [("Pair", handler)]).run =
          .error (.of (.missingHandlers "Shape" ["Empty"])) := by
      intro ρ handler
      have haccepts : Dispatch.Accepts (emptyOrPair.cases.map (·.name)) ["Pair"] :=
        Dispatch.accepts_iff.2 (by decide)
      obtain ⟨hfails, hcause⟩ := h.run [("Pair", handler)] haccepts
      have hleft : "Empty" ∉ ["Pair"] := by decide
      obtain ⟨f, hf⟩ := hfails.2 ⟨⟨"Empty", []⟩, List.mem_cons_self, hleft⟩
      rw [hf, (hcause f hf).1]
      rfl
    have hunchanged := h.unchanged [("Pair", fun _ => (modify (· + 1) : StateM Nat Unit))] (pure ())
      (.of (.missingHandlers "Shape" ["Empty"])) 0 0
    exact ⟨hmissing _, hunchanged.1.2 ⟨hmissing _, rfl⟩⟩

end CaseUnion
