import Mathlib.Data.List.Nodup
import CaseUnion.Value

/-!
# Construction and dispatch

Where case names are distinct, the tag of a value is the position of its case (`position?_eq_some_iff`)
and its payload has the arity of that case. Registering handlers for distinct cases in any order
leaves no problem and finds each handler again under its tag (`register_spec`), so a dispatch over a
constructed value calls the handler of its case with the arguments it was constructed from.
-/

namespace CaseUnion

namespace Shape

def Distinct (s : Shape) : Prop := (s.cases.map (·.1)).Nodup

variable {s : Shape} {c : String} {args : List Value} {v : UnionValue}

theorem position?_eq_none_iff : s.position? c = none ↔ c ∉ s.cases.map (·.1) := by
  rw [position?, List.findIdx?_eq_none_iff]
  constructor
  · intro h hmem
    obtain ⟨k, hk, rfl⟩ := List.mem_map.1 hmem
    simpa using h k hk
  · intro h k hk
    have hne : k.1 ≠ c := fun heq => h (heq ▸ List.mem_map_of_mem hk)
    simpa using hne

theorem getElem?_of_position? {tag : Nat} (h : s.position? c = some tag) :
    (s.cases.map (·.1))[tag]? = some c := by
  obtain ⟨hlt, hname, _⟩ := List.findIdx?_eq_some_iff_getElem.1 h
  rw [List.getElem?_map, List.getElem?_eq_getElem hlt]
  exact congrArg some (by simpa using hname)

/-- The position of a name is the only one at which it stands. -/
theorem position?_eq_some_iff (hs : s.Distinct) {tag : Nat} :
    s.position? c = some tag ↔ (s.cases.map (·.1))[tag]? = some c := by
  constructor
  · exact getElem?_of_position?
  · intro h
    cases hposition : s.position? c with
    | none => exact absurd (List.mem_of_getElem? h) (position?_eq_none_iff.1 hposition)
    | some tag' =>
      have h' := getElem?_of_position? hposition
      have hlt : tag' < (s.cases.map (·.1)).length := (List.getElem?_eq_some_iff.1 h').1
      rw [(List.getElem?_inj hlt hs).1 (h'.trans h.symm)]

theorem position?_injective {d : String} {tag : Nat} (hc : s.position? c = some tag)
    (hd : s.position? d = some tag) : c = d :=
  Option.some.inj ((getElem?_of_position? hc).symm.trans (getElem?_of_position? hd))

theorem construct_eq_ok_iff :
    s.construct c args = .ok v ↔
      ∃ tag, s.position? c = some tag ∧ args.length = s.arity tag ∧
        v = ⟨s, tag, if s.arity tag = 0 then none else some args⟩ := by
  rw [construct]
  cases s.position? c with
  | none => simp
  | some tag =>
    by_cases hlength : args.length = s.arity tag
    · simp [hlength, eq_comm]
    · simp [hlength]

theorem construct_of_unknown (h : c ∉ s.cases.map (·.1)) :
    s.construct c args = .error (.of (.unknownCase s.name c)) := by
  rw [construct, position?_eq_none_iff.2 h]

theorem construct_of_arity_ne {tag : Nat} (hposition : s.position? c = some tag)
    (h : args.length ≠ s.arity tag) :
    s.construct c args = .error (.of (.arityMismatch s.name c (s.arity tag) args.length)) := by
  rw [construct, hposition]
  exact if_neg h

theorem shape_of_construct (h : s.construct c args = .ok v) : v.shape = s := by
  obtain ⟨_, _, _, rfl⟩ := construct_eq_ok_iff.1 h
  rfl

theorem position?_of_construct (h : s.construct c args = .ok v) : s.position? c = some v.tag := by
  obtain ⟨_, hposition, _, rfl⟩ := construct_eq_ok_iff.1 h
  exact hposition

/-- The payload gives back the arguments, whether it is there or not. -/
theorem arguments_of_construct (h : s.construct c args = .ok v) : v.arguments = args := by
  obtain ⟨tag, _, hlength, rfl⟩ := construct_eq_ok_iff.1 h
  by_cases hzero : s.arity tag = 0
  · have hnil : args = [] := List.eq_nil_of_length_eq_zero (hlength.trans hzero)
    simp [UnionValue.arguments, hzero, hnil]
  · simp [UnionValue.arguments, hzero]

theorem caseName_of_construct (h : s.construct c args = .ok v) : v.caseName = c := by
  have hname := getElem?_of_position? (position?_of_construct h)
  rw [List.getElem?_map] at hname
  rw [UnionValue.caseName, shape_of_construct h, caseName, hname]
  rfl

end Shape

namespace Dispatch

variable {ρ : Type} {d : Dispatch ρ} {c : String} {h : List Value → ρ} {tag : Nat}

def register (d : Dispatch ρ) (handlers : List (String × (List Value → ρ))) : Dispatch ρ :=
  handlers.foldl (fun d handler => d.on handler.1 handler.2) d

theorem value_on (d : Dispatch ρ) (c : String) (h : List Value → ρ) : (d.on c h).value = d.value := by
  unfold on
  split
  · rfl
  · split
    · rfl
    · split <;> rfl

theorem value_register (d : Dispatch ρ) (handlers : List (String × (List Value → ρ))) :
    (d.register handlers).value = d.value := by
  induction handlers generalizing d with
  | nil => rfl
  | cons handler rest ih =>
    rw [register, List.foldl_cons, ← register, ih, value_on]

/-- The first handler of a case is put behind the handlers before it. -/
theorem on_of_free (hproblem : d.problem = none) (hc : d.value.shape.position? c = some tag)
    (hfree : d.handler? tag = none) :
    d.on c h = { d with handlers := d.handlers ++ [(tag, h)] } := by
  simp [on, hproblem, hc, hfree]

theorem handler?_append (d : Dispatch ρ) (tag other : Nat) (h : List Value → ρ) :
    { d with handlers := d.handlers ++ [(tag, h)] }.handler? other =
      (d.handler? other).or (if other = tag then some h else none) := by
  simp only [handler?, List.find?_append]
  cases d.handlers.find? (·.1 == other) with
  | some entry => rfl
  | none =>
    by_cases hother : other = tag
    · simp [hother]
    · simp [hother, Ne.symm hother]

/-- Handlers for distinct cases without one are all registered, and each is found under the tag of
its case; the order does not matter. -/
theorem register_spec {handlers : List (String × (List Value → ρ))} (hproblem : d.problem = none)
    (hnodup : (handlers.map (·.1)).Nodup)
    (hfree : ∀ p ∈ handlers, ∃ tag, d.value.shape.position? p.1 = some tag ∧ d.handler? tag = none) :
    (d.register handlers).problem = none ∧
      ∀ c tag, d.value.shape.position? c = some tag →
        (d.register handlers).handler? tag = (d.handler? tag).or (handlers.lookup c) := by
  induction handlers generalizing d with
  | nil => exact ⟨hproblem, fun _ _ _ => by simp [register]⟩
  | cons p rest ih =>
    obtain ⟨name, h⟩ := p
    obtain ⟨position, hposition, hnone⟩ := hfree (name, h) List.mem_cons_self
    obtain ⟨hfresh, hrest⟩ := List.nodup_cons.1 hnodup
    have hon : d.on name h = { d with handlers := d.handlers ++ [(position, h)] } :=
      on_of_free hproblem hposition hnone
    have hvalue : (d.on name h).value = d.value := value_on d name h
    -- the names that follow stand for other tags, which stay free
    have hstill : ∀ q ∈ rest, ∃ tag, (d.on name h).value.shape.position? q.1 = some tag ∧
        (d.on name h).handler? tag = none := by
      intro q hq
      obtain ⟨tag, htag, hfreeTag⟩ := hfree q (List.mem_cons_of_mem _ hq)
      refine ⟨tag, by rw [hvalue, htag], ?_⟩
      have hne : tag ≠ position := by
        rintro rfl
        have hname : q.1 = name := Shape.position?_injective htag hposition
        exact hfresh (List.mem_map.2 ⟨q, hq, hname⟩)
      rw [hon, handler?_append, hfreeTag, if_neg hne]
      rfl
    obtain ⟨hok, hfound⟩ := ih (by rw [hon]; exact hproblem) hrest hstill
    refine ⟨hok, fun c tag hc => ?_⟩
    have hc' : (d.on name h).value.shape.position? c = some tag := by rw [hvalue, hc]
    rw [register, List.foldl_cons, ← register, hfound c tag hc', hon, handler?_append,
      Option.or_assoc, List.lookup_cons]
    by_cases hname : c = name
    · subst hname
      have htag : tag = position := Option.some.inj (hc.symm.trans hposition)
      simp [htag]
    · have htag : tag ≠ position := by
        rintro rfl
        exact hname (Shape.position?_injective hc hposition)
      have hother : (c == name) = false := by simpa using hname
      simp [htag, hother]

theorem missing_eq_nil_iff (d : Dispatch ρ) :
    d.missing = [] ↔ ∀ tag < d.value.shape.cases.length, d.handler? tag ≠ none := by
  rw [missing, List.map_eq_nil_iff, List.filter_eq_nil_iff]
  constructor
  · intro h tag hlt
    have hmem : (d.value.shape.cases[tag], tag) ∈ d.value.shape.cases.zipIdx :=
      List.mk_mem_zipIdx_iff_getElem?.2 (List.getElem?_eq_getElem hlt)
    simpa using h _ hmem
  · rintro h ⟨k, tag⟩ hmem
    have hlt : tag < d.value.shape.cases.length :=
      (List.getElem?_eq_some_iff.1 (List.mk_mem_zipIdx_iff_getElem?.1 hmem)).1
    simpa using h tag hlt

theorem run_of_handler? (hproblem : d.problem = none) (hmissing : d.missing = [])
    (hhandler : d.handler? d.value.tag = some h) : d.run = .ok (h d.value.arguments) := by
  rw [run_eq, hproblem, hmissing, hhandler]
  rfl

theorem runWithDefault_of_handler? (default : ρ) (hproblem : d.problem = none)
    (hcases : 2 ≤ d.value.shape.cases.length) :
    d.runWithDefault default =
      .ok (((d.handler? d.value.tag).map fun h => h d.value.arguments).getD default) := by
  have hnot : ¬ d.value.shape.cases.length ≤ 1 := by omega
  simp only [runWithDefault_eq, hproblem, if_neg hnot]
  cases d.handler? d.value.tag <;> rfl

/-- A dispatch over a value whose tag stands for a case finds the handler, or says what is
missing. -/
theorem code_of_run_ne_unreachable (htag : d.value.tag < d.value.shape.cases.length) {f : Failure}
    (hproblem : ∀ cause, d.problem = some cause → cause.code ≠ ⟨.internal, 3⟩)
    (hrun : d.run = .error f) : f.code ≠ ⟨.internal, 3⟩ := by
  rw [run_eq] at hrun
  cases hp : d.problem with
  | some cause =>
    rw [hp] at hrun
    cases hrun
    exact hproblem cause hp
  | none =>
    rw [hp] at hrun
    by_cases hmissing : d.missing = []
    · obtain ⟨h, hh⟩ := Option.ne_none_iff_exists'.1 ((missing_eq_nil_iff d).1 hmissing _ htag)
      simp [hmissing, hh] at hrun
    · have hne : d.missing.isEmpty = false := by simpa using hmissing
      simp only [hne, Bool.false_eq_true, if_false, Except.error.injEq] at hrun
      subst hrun
      exact nofun

theorem code_of_problem_register {d : Dispatch ρ} {handlers : List (String × (List Value → ρ))}
    (hproblem : ∀ cause, d.problem = some cause → cause.code ≠ ⟨.internal, 3⟩) :
    ∀ cause, (d.register handlers).problem = some cause → cause.code ≠ ⟨.internal, 3⟩ := by
  induction handlers generalizing d with
  | nil => exact hproblem
  | cons p rest ih =>
    rw [register, List.foldl_cons, ← register]
    apply ih
    intro cause hcause
    rw [on] at hcause
    split at hcause
    · exact hproblem cause hcause
    · split at hcause
      · cases hcause
        exact nofun
      · split at hcause
        · cases hcause
          exact nofun
        · exact hproblem cause hcause

theorem code_of_problem_register_begin {v : UnionValue}
    {handlers : List (String × (List Value → ρ))} :
    ∀ cause, ((begin v).register handlers).problem = some cause → cause.code ≠ ⟨.internal, 3⟩ := by
  apply code_of_problem_register
  rintro cause ⟨⟩

theorem handler?_register_begin {v : UnionValue} {handlers : List (String × (List Value → ρ))}
    (hnodup : (handlers.map (·.1)).Nodup)
    (hknown : ∀ p ∈ handlers, p.1 ∈ v.shape.cases.map (·.1)) :
    ((begin v).register handlers).problem = none ∧
      ∀ c tag, v.shape.position? c = some tag →
        ((begin v).register handlers).handler? tag = handlers.lookup c := by
  have hfree : ∀ p ∈ handlers, ∃ tag, v.shape.position? p.1 = some tag ∧
      (begin v : Dispatch ρ).handler? tag = none := by
    intro p hp
    cases hposition : v.shape.position? p.1 with
    | none => exact absurd (hknown p hp) (Shape.position?_eq_none_iff.1 hposition)
    | some tag => exact ⟨tag, rfl, rfl⟩
  exact register_spec rfl hnodup hfree

end Dispatch

theorem lookup_eq_some_of_mem {β : Type} {entries : List (String × β)} {c : String} {b : β}
    (hnodup : (entries.map (·.1)).Nodup) (h : (c, b) ∈ entries) : entries.lookup c = some b := by
  induction entries with
  | nil => cases h
  | cons entry rest ih =>
    obtain ⟨name, value⟩ := entry
    obtain ⟨hfresh, hrest⟩ := List.nodup_cons.1 hnodup
    rw [List.lookup_cons]
    rcases List.mem_cons.1 h with heq | hmem
    · cases heq
      simp
    · have hc : c ∈ rest.map (·.1) := List.mem_map.2 ⟨(c, b), hmem, rfl⟩
      have hne : c ≠ name := by
        rintro rfl
        exact hfresh hc
      rw [beq_eq_false_iff_ne.2 hne]
      exact ih hrest hmem

namespace Shape

variable {u : UnionType}

theorem names_ofUnion (u : UnionType) :
    (ofUnion u).cases.map (·.1) = u.cases.map (·.name) := by
  simp [ofUnion]

theorem arity_ofUnion {tag : Nat} {k : UnionCase} (h : u.cases[tag]? = some k) :
    (ofUnion u).arity tag = k.arity := by
  simp [ofUnion, arity, h]

theorem position?_ofUnion_iff (hu : (u.cases.map (·.name)).Nodup) {c : String} {tag : Nat} :
    (ofUnion u).position? c = some tag ↔ ∃ k, u.cases[tag]? = some k ∧ k.name = c := by
  have hdistinct : (ofUnion u).Distinct := by rwa [Distinct, names_ofUnion]
  rw [position?_eq_some_iff hdistinct, names_ofUnion, List.getElem?_map, Option.map_eq_some_iff]

theorem exists_construct_iff (hu : (u.cases.map (·.name)).Nodup) {c : String} {args : List Value} :
    (∃ v, (ofUnion u).construct c args = .ok v) ↔
      ∃ k ∈ u.cases, k.name = c ∧ args.length = k.arity := by
  constructor
  · rintro ⟨v, h⟩
    obtain ⟨tag, hposition, hlength, _⟩ := construct_eq_ok_iff.1 h
    obtain ⟨k, hk, hname⟩ := (position?_ofUnion_iff hu).1 hposition
    exact ⟨k, List.mem_of_getElem? hk, hname, hlength.trans (arity_ofUnion hk)⟩
  · rintro ⟨k, hmem, hname, hlength⟩
    obtain ⟨tag, hk⟩ := List.mem_iff_getElem?.1 hmem
    have hposition := (position?_ofUnion_iff hu).2 ⟨k, hk, hname⟩
    exact ⟨_, construct_eq_ok_iff.2 ⟨tag, hposition, hlength.trans (arity_ofUnion hk).symm, rfl⟩⟩

end Shape

namespace Dispatch

variable {ρ : Type} {u : UnionType} {c : String} {args : List Value} {v : UnionValue}
  {handlers : List (String × (List Value → ρ))}

theorem run_of_perm (hu : (u.cases.map (·.name)).Nodup)
    (hv : (Shape.ofUnion u).construct c args = .ok v)
    (hperm : (handlers.map (·.1)).Perm (u.cases.map (·.name))) :
    ∃ h, (c, h) ∈ handlers ∧ ((begin v).register handlers).run = .ok (h args) := by
  have hshape : v.shape = Shape.ofUnion u := Shape.shape_of_construct hv
  have hposition := Shape.position?_of_construct hv
  have hnodup : (handlers.map (·.1)).Nodup := hperm.nodup_iff.2 hu
  have hnames : ∀ name, name ∈ v.shape.cases.map (·.1) ↔ name ∈ handlers.map (·.1) := by
    intro name
    rw [hshape, Shape.names_ofUnion, hperm.mem_iff]
  have hvalue : ((begin v).register handlers).value = v := value_register _ _
  obtain ⟨hproblem, hfound⟩ := handler?_register_begin hnodup fun p hp =>
    (hnames p.1).2 (List.mem_map_of_mem hp)
  have hc : c ∈ v.shape.cases.map (·.1) :=
    List.mem_of_getElem? (Shape.getElem?_of_position? (hshape ▸ hposition))
  obtain ⟨⟨name, h⟩, hmem, rfl⟩ := List.mem_map.1 ((hnames c).1 hc)
  refine ⟨h, hmem, ?_⟩
  have hmissing : ((begin v).register handlers).missing = [] := by
    rw [missing_eq_nil_iff, hvalue]
    intro tag hlt
    have hat : (v.shape.cases.map (·.1))[tag]? = some v.shape.cases[tag].1 := by
      rw [List.getElem?_map, List.getElem?_eq_getElem hlt]
      rfl
    have hdistinct : v.shape.Distinct := by rwa [hshape, Shape.Distinct, Shape.names_ofUnion]
    rw [hfound _ tag ((Shape.position?_eq_some_iff hdistinct).2 hat)]
    obtain ⟨⟨other, g⟩, hother, hname⟩ :=
      List.mem_map.1 ((hnames _).1 (List.mem_of_getElem? hat))
    rw [← hname, lookup_eq_some_of_mem hnodup hother]
    exact nofun
  have hhandler : ((begin v).register handlers).handler?
      ((begin v).register handlers).value.tag = some h := by
    rw [hvalue, hfound name v.tag (hshape ▸ hposition), lookup_eq_some_of_mem hnodup hmem]
  rw [run_of_handler? hproblem hmissing hhandler, hvalue, Shape.arguments_of_construct hv]

theorem runWithDefault_register (hv : (Shape.ofUnion u).construct c args = .ok v)
    (hcases : 2 ≤ u.cases.length) (hnodup : (handlers.map (·.1)).Nodup)
    (hknown : ∀ p ∈ handlers, p.1 ∈ u.cases.map (·.name)) (default : ρ) :
    ((begin v).register handlers).runWithDefault default =
      .ok (((handlers.lookup c).map fun h => h args).getD default) := by
  have hshape : v.shape = Shape.ofUnion u := Shape.shape_of_construct hv
  have hvalue : ((begin v).register handlers).value = v := value_register _ _
  obtain ⟨hproblem, hfound⟩ := handler?_register_begin (v := v) hnodup fun p hp => by
    rw [hshape, Shape.names_ofUnion]
    exact hknown p hp
  have hlength : 2 ≤ ((begin v).register handlers).value.shape.cases.length := by
    rw [hvalue, hshape, ← List.length_map (f := (·.1)), Shape.names_ofUnion, List.length_map]
    exact hcases
  have hposition : v.shape.position? c = some v.tag := by
    rw [hshape, Shape.position?_of_construct hv]
  rw [runWithDefault_of_handler? default hproblem hlength, hvalue, hfound c v.tag hposition,
    Shape.arguments_of_construct hv]

theorem code_of_run_register_ne (hv : (Shape.ofUnion u).construct c args = .ok v) {f : Failure}
    (hrun : ((begin v).register handlers).run = .error f) : f.code ≠ ⟨.internal, 3⟩ := by
  have hshape : v.shape = Shape.ofUnion u := Shape.shape_of_construct hv
  have hvalue : ((begin v).register handlers).value = v := value_register _ _
  have htag : v.tag < v.shape.cases.length := by
    have hat := Shape.getElem?_of_position? (Shape.position?_of_construct hv)
    have hlt := (List.getElem?_eq_some_iff.1 hat).1
    rwa [List.length_map, ← hshape] at hlt
  refine code_of_run_ne_unreachable ?_ code_of_problem_register_begin hrun
  rwa [hvalue]

theorem code_of_runWithDefault_register_ne {default : ρ} {f : Failure}
    (hrun : ((begin v).register handlers).runWithDefault default = .error f) :
    f.code ≠ ⟨.internal, 3⟩ := by
  rw [runWithDefault_eq] at hrun
  split at hrun
  · rename_i cause hcause
    cases hrun
    exact code_of_problem_register_begin cause hcause
  · split at hrun
    · cases hrun
      exact nofun
    · split at hrun <;> cases hrun

end Dispatch

/-- What dispatch does over a value of the case `c` with the arguments `args`, whatever handlers of
any result type are registered: with one handler for each case the one of `c` is called; with a
default, the one of `c` if there is one. The result shows which handler was called. -/
structure UnionValue.DispatchesTo (v : UnionValue) (u : UnionType) (c : String)
    (args : List Value) : Prop where
  run : ∀ {ρ : Type} (handlers : List (String × (List Value → ρ))),
    (handlers.map (·.1)).Perm (u.cases.map (·.name)) →
      ∃ h, (c, h) ∈ handlers ∧ ((Dispatch.begin v).register handlers).run = .ok (h args)
  withDefault : 2 ≤ u.cases.length → ∀ {ρ : Type} (handlers : List (String × (List Value → ρ))),
    (handlers.map (·.1)).Nodup → (∀ p ∈ handlers, p.1 ∈ u.cases.map (·.name)) → ∀ default,
      (∀ h, (c, h) ∈ handlers →
        ((Dispatch.begin v).register handlers).runWithDefault default = .ok (h args)) ∧
      (c ∉ handlers.map (·.1) →
        ((Dispatch.begin v).register handlers).runWithDefault default = .ok default)
  agree : 2 ≤ u.cases.length → ∀ {ρ : Type} (handlers : List (String × (List Value → ρ))),
    (handlers.map (·.1)).Perm (u.cases.map (·.name)) → ∀ default,
      ((Dispatch.begin v).register handlers).runWithDefault default =
        ((Dispatch.begin v).register handlers).run
  reachable : ∀ {ρ : Type} (handlers : List (String × (List Value → ρ))) (default : ρ) f,
    ((Dispatch.begin v).register handlers).run = .error f ∨
      ((Dispatch.begin v).register handlers).runWithDefault default = .error f →
        f.code ≠ ⟨.internal, 3⟩

theorem UnionValue.dispatchesTo_of_construct {u : UnionType} {c : String} {args : List Value}
    {v : UnionValue} (hu : (u.cases.map (·.name)).Nodup)
    (hv : (Shape.ofUnion u).construct c args = .ok v) : v.DispatchesTo u c args := by
  constructor
  case run =>
    intro ρ handlers hperm
    exact Dispatch.run_of_perm hu hv hperm
  case withDefault =>
    intro hcases ρ handlers hnodup hknown default
    rw [Dispatch.runWithDefault_register hv hcases hnodup hknown]
    constructor
    · intro h hmem
      rw [lookup_eq_some_of_mem hnodup hmem]
      rfl
    · intro hnot
      have hnone : handlers.lookup c = none := by
        rw [List.lookup_eq_none_iff]
        intro p hp
        have hne : c ≠ p.1 := fun heq => hnot (heq ▸ List.mem_map_of_mem hp)
        simpa using hne
      rw [hnone]
      rfl
  case agree =>
    intro hcases ρ handlers hperm default
    have hnodup : (handlers.map (·.1)).Nodup := hperm.nodup_iff.2 hu
    have hknown : ∀ p ∈ handlers, p.1 ∈ u.cases.map (·.name) :=
      fun p hp => hperm.mem_iff.1 (List.mem_map_of_mem hp)
    obtain ⟨h, hmem, hrun⟩ := Dispatch.run_of_perm hu hv hperm
    rw [hrun, Dispatch.runWithDefault_register hv hcases hnodup hknown,
      lookup_eq_some_of_mem hnodup hmem]
    rfl
  case reachable =>
    intro ρ handlers default f hf
    rcases hf with hrun | hrun
    · exact Dispatch.code_of_run_register_ne hv hrun
    · exact Dispatch.code_of_runWithDefault_register_ne hrun

/-- Constructing a value and dispatching over it gives back the case and the arguments. A value is
constructed exactly for a case of the union and as many arguments as the case has parameters. -/
theorem UnionType.dispatch_construct (u : UnionType) (c : String) (args : List Value)
    (hu : (u.cases.map (·.name)).Nodup) :
    ((∃ v, (Shape.ofUnion u).construct c args = .ok v) ↔
        ∃ k ∈ u.cases, k.name = c ∧ args.length = k.arity) ∧
      ((∀ k ∈ u.cases, k.name ≠ c) → ∃ f, (Shape.ofUnion u).construct c args = .error f ∧
        f = .of (.unknownCase u.qualified c) ∧ f.code = ⟨.dispatch, 1⟩) ∧
      (∀ k ∈ u.cases, k.name = c → args.length ≠ k.arity →
        ∃ f, (Shape.ofUnion u).construct c args = .error f ∧
          f = .of (.arityMismatch u.qualified c k.arity args.length) ∧ f.code = ⟨.dispatch, 2⟩) ∧
      ∀ v, (Shape.ofUnion u).construct c args = .ok v →
        u.cases[v.tag]?.map (·.name) = some c ∧ v.caseName = c ∧ v.DispatchesTo u c args := by
  refine ⟨Shape.exists_construct_iff hu, ?_, ?_, ?_⟩
  · intro hunknown
    refine ⟨_, Shape.construct_of_unknown ?_, rfl, rfl⟩
    rw [Shape.names_ofUnion]
    intro hmem
    obtain ⟨k, hk, hname⟩ := List.mem_map.1 hmem
    exact hunknown k hk hname
  · intro k hmem hname hlength
    obtain ⟨tag, hk⟩ := List.mem_iff_getElem?.1 hmem
    have hposition := (Shape.position?_ofUnion_iff hu).2 ⟨k, hk, hname⟩
    have harity : (Shape.ofUnion u).arity tag = k.arity := Shape.arity_ofUnion hk
    refine ⟨_, Shape.construct_of_arity_ne hposition (harity ▸ hlength), ?_, rfl⟩
    rw [harity]
    rfl
  · intro v hv
    have hposition := Shape.position?_of_construct hv
    obtain ⟨k, hk, hname⟩ := (Shape.position?_ofUnion_iff hu).1 hposition
    refine ⟨?_, Shape.caseName_of_construct hv, UnionValue.dispatchesTo_of_construct hu hv⟩
    rw [hk, ← hname]
    rfl

/-- A union with a case without parameters and a case with two. -/
def UnionType.emptyOrPair : UnionType where
  name := "Shape"
  descriptor := .ofHeader { name := "Shape", kind := .structType } none []
  cases :=
    let parameter (name : String) : CaseParameter := ⟨name, .ofReference (.named [.mk "int" []]) []⟩
    [⟨"Empty", []⟩, ⟨"Pair", [parameter "first", parameter "second"]⟩]
  allowDefault := false

/-- Handlers registered in the opposite order of the cases. -/
theorem UnionType.dispatch_emptyOrPair :
    ∃ v, (Shape.ofUnion emptyOrPair).construct "Pair" [.int 1, .bool true] = .ok v ∧ v.tag = 1 ∧
      ((Dispatch.begin v).register [("Pair", fun args => args.length), ("Empty", fun _ => 7)]).run =
        .ok 2 := by
  obtain ⟨hexists, _, _, hvalue⟩ :=
    dispatch_construct emptyOrPair "Pair" [.int 1, .bool true] (by decide)
  obtain ⟨v, hv⟩ := hexists.2 ⟨_, List.mem_cons_of_mem _ List.mem_cons_self, rfl, rfl⟩
  obtain ⟨_, _, hdispatch⟩ := hvalue v hv
  obtain ⟨h, hmem, hrun⟩ := hdispatch.run
    [("Pair", fun args => args.length), ("Empty", fun _ => 7)] (.swap _ _ _)
  have hh : h = fun args => args.length := by simpa using hmem
  subst hh
  cases hv
  exact ⟨_, rfl, rfl, hrun⟩

end CaseUnion
