import CaseUnion.Emission
import CaseUnion.Proofs.TypeRendering

/-!
# Packed payloads

The payload of a case is read here as code in its own right: an expression that makes a tuple
(`TupleExpression`), the type of this expression (`TupleExpression.HasType`), and accesses to the
members of the tuple (`ItemPath.read?`). All of them follow one nesting of the parameters
(`Packed.ofList_map`), and the way to a position leads to the item at this position
(`ItemPath.follow?_ofPosition`).

The types in this code are texts. `Packed.SpellsType` says which texts are those of a tuple type, and
such a text is read as a reference to the type level by level (`TypeRef.tuple?`).
-/

namespace CaseUnion

namespace Packed

variable {α β : Type}

/-- Every level has one to seven items, and all seven where a rest follows. -/
def IsLevelled : Packed α → Prop
  | last items => 1 ≤ items.length ∧ items.length ≤ 7
  | more items rest => items.length = 7 ∧ rest.IsLevelled

theorem IsLevelled.ne_nil {items : List α} {rest : Packed α} (h : (more items rest).IsLevelled) :
    items ≠ [] := by
  rintro rfl
  cases h.1

theorem isLevelled_map {f : α → β} {p : Packed α} (h : p.IsLevelled) : (p.map f).IsLevelled := by
  induction p with
  | last items => simpa [map, IsLevelled] using h
  | more items rest ih => exact ⟨by simpa using h.1, ih h.2⟩

theorem ofList_of_length_le {xs : List α} (h : xs.length ≤ slots) : ofList xs = last xs := by
  rw [ofList, if_pos h]

theorem ofList_of_not_length_le {xs : List α} (h : ¬ xs.length ≤ slots) :
    ofList xs = more (xs.take slots) (ofList (xs.drop slots)) := by
  rw [ofList, if_neg h]

theorem isLevelled_ofList {xs : List α} (h : xs ≠ []) : (ofList xs).IsLevelled := by
  induction xs using ofList.induct with
  | case1 xs hshort =>
    rw [ofList_of_length_le hshort]
    exact ⟨List.length_pos_iff.2 h, hshort⟩
  | case2 xs hlong ih =>
    rw [ofList_of_not_length_le hlong]
    have hrest : xs.drop slots ≠ [] := by
      rw [Ne, List.drop_eq_nil_iff]
      exact hlong
    exact ⟨List.length_take_of_le (Nat.le_of_not_le hlong), ih hrest⟩

theorem toList_ofList (xs : List α) : (ofList xs).toList = xs := by
  induction xs using ofList.induct with
  | case1 xs hshort => rw [ofList_of_length_le hshort, toList]
  | case2 xs hlong ih => rw [ofList_of_not_length_le hlong, toList, ih, List.take_append_drop]

theorem map_map {γ : Type} (g : β → γ) (f : α → β) (p : Packed α) :
    (p.map f).map g = p.map (fun x => g (f x)) := by
  induction p with
  | last items => simp [map, Function.comp_def]
  | more items rest ih => simp [map, ih, Function.comp_def]

/-- Nesting looks at the number of items only. -/
theorem ofList_map (f : α → β) (xs : List α) : ofList (xs.map f) = (ofList xs).map f := by
  induction xs using ofList.induct with
  | case1 xs hshort =>
    rw [ofList_of_length_le hshort, ofList_of_length_le (by simpa using hshort), map]
  | case2 xs hlong ih =>
    rw [ofList_of_not_length_le hlong, ofList_of_not_length_le (by simpa using hlong), map, ← ih,
      List.map_take, List.map_drop]

/-- The text of a tuple type: the generic type of the types in its slots, with the type of the rest
behind the seventh. -/
inductive SpellsType : String → Packed String → Prop
  | last {types : List String} : 1 ≤ types.length → types.length ≤ 7 →
    SpellsType ("System.ValueTuple<" ++ ", ".intercalate types ++ ">") (.last types)
  | more {types : List String} {text : String} {rest : Packed String} : types.length = 7 →
    SpellsType text rest →
      SpellsType ("System.ValueTuple<" ++ ", ".intercalate (types ++ [text]) ++ ">")
        (.more types rest)

theorem typeText_more {types : List String} (h : types ≠ []) (rest : Packed String) :
    (more types rest).typeText =
      "System.ValueTuple<" ++ ", ".intercalate (types ++ [rest.typeText]) ++ ">" := by
  have htext : (more types rest).typeText =
      "System.ValueTuple<" ++ ", ".intercalate types ++ ", " ++ rest.typeText ++ ">" := rfl
  rw [htext, String.intercalate_append_of_ne_nil h (List.cons_ne_nil _ _),
    String.intercalate_singleton]
  simp only [String.append_assoc]

theorem spellsType_typeText {p : Packed String} (h : p.IsLevelled) : SpellsType p.typeText p := by
  induction p with
  | last types => exact .last h.1 h.2
  | more types rest ih =>
    rw [typeText_more h.ne_nil]
    exact .more h.1 (ih h.2)

theorem valueText_last (items : List (String × String)) : (last items).valueText =
    "System.ValueTuple.Create(" ++ ", ".intercalate (items.map (·.1)) ++ ")" := rfl

theorem valueText_more (items : List (String × String)) (rest : Packed (String × String)) :
    (more items rest).valueText =
      "new " ++ ((more items rest).map (·.2)).typeText ++ "(" ++
        ", ".intercalate (items.map (·.1)) ++ ", " ++ rest.valueText ++ ")" := rfl

end Packed

namespace TypeRef

/-- The generic type of the types in the slots of a tuple. -/
def valueTuple (arguments : List TypeRef) : TypeRef :=
  named [.mk "System" [], .mk "ValueTuple" arguments]

def ofTuple : Packed TypeRef → TypeRef
  | .last types => valueTuple types
  | .more types rest => valueTuple (types ++ [ofTuple rest])

/-- The types in the slots of a tuple type, level by level. An eighth one is that of the rest. -/
def tuple? : TypeRef → Option (Packed TypeRef)
  | named [.mk "System" [], .mk "ValueTuple" [a, b, c, d, e, f, g, rest]] =>
    (tuple? rest).map (.more [a, b, c, d, e, f, g])
  | named [.mk "System" [], .mk "ValueTuple" arguments] =>
    if 1 ≤ arguments.length ∧ arguments.length ≤ 7 then some (.last arguments) else none
  | _ => none

theorem wellFormed_valueTuple {arguments : List TypeRef} (h : ∀ t ∈ arguments, t.WellFormed) :
    (valueTuple arguments).WellFormed := by
  have hsystem : IsName 'S' "ystem".toList :=
    ⟨by decide +kernel, List.all_eq_true.1 (by decide +kernel)⟩
  have htuple : IsName 'V' "alueTuple".toList :=
    ⟨by decide +kernel, List.all_eq_true.1 (by decide +kernel)⟩
  refine .named (List.cons_ne_nil _ _) (List.forall_mem_cons.2 ⟨.mk hsystem nofun, ?_⟩)
  exact List.forall_mem_singleton.2 (.mk htuple h)

theorem argumentsChars_eq (first : TypeRef) (rest : List TypeRef) :
    String.ofList (first.chars ++ argumentsChars rest) =
      ", ".intercalate ((first :: rest).map (·.render)) := by
  induction rest generalizing first with
  | nil => simp [argumentsChars, render]
  | cons second rest ih =>
    have hrest := ih second
    rw [List.map_cons, String.intercalate_cons_of_ne_nil (by simp), ← hrest, argumentsChars, render]
    simp [← String.toList_inj]

theorem render_valueTuple {arguments : List TypeRef} (h : arguments ≠ []) :
    (valueTuple arguments).render =
      "System.ValueTuple<" ++ ", ".intercalate (arguments.map (·.render)) ++ ">" := by
  obtain ⟨first, rest, rfl⟩ := List.exists_cons_of_ne_nil h
  rw [← argumentsChars_eq]
  simp [valueTuple, render, chars, segmentsChars, TypeSegment.chars, ← String.toList_inj]

theorem tuple?_valueTuple {arguments : List TypeRef} (h : 1 ≤ arguments.length)
    (h' : arguments.length ≤ 7) : (valueTuple arguments).tuple? = some (.last arguments) := by
  rw [valueTuple, tuple?]
  · exact if_pos ⟨h, h'⟩
  · rintro a b c d e f g rest rfl
    exact absurd h' (by simp)

theorem tuple?_valueTuple_concat {arguments : List TypeRef} (h : arguments.length = 7)
    (rest : TypeRef) :
    (valueTuple (arguments ++ [rest])).tuple? = rest.tuple?.map (.more arguments) := by
  match arguments, h with
  | [a, b, c, d, e, f, g], _ =>
    change (named [.mk "System" [], .mk "ValueTuple" [a, b, c, d, e, f, g, rest]]).tuple? = _
    rw [tuple?]

theorem tuple?_ofTuple {p : Packed TypeRef} (h : p.IsLevelled) : (ofTuple p).tuple? = some p := by
  induction p with
  | last types => exact tuple?_valueTuple h.1 h.2
  | more types rest ih =>
    rw [ofTuple, tuple?_valueTuple_concat h.1, ih h.2]
    rfl

theorem render_ofTuple {p : Packed TypeRef} (h : p.IsLevelled) :
    (ofTuple p).render = (p.map (·.render)).typeText := by
  induction p with
  | last types => exact render_valueTuple (List.ne_nil_of_length_pos h.1)
  | more types rest ih =>
    rw [ofTuple, render_valueTuple (List.append_ne_nil_of_right_ne_nil _ (List.cons_ne_nil _ _)),
      List.map_append, List.map_singleton, ih h.2, Packed.map,
      Packed.typeText_more (mt List.map_eq_nil_iff.1 h.ne_nil)]

theorem wellFormed_ofTuple {p : Packed TypeRef} (h : ∀ t ∈ p.toList, t.WellFormed) :
    (ofTuple p).WellFormed := by
  induction p with
  | last types => exact wellFormed_valueTuple h
  | more types rest ih =>
    rw [Packed.toList, List.forall_mem_append] at h
    exact wellFormed_valueTuple (List.forall_mem_append.2 ⟨h.1, List.forall_mem_singleton.2 (ih h.2)⟩)

end TypeRef

/-- An expression that makes a tuple of parameters. -/
inductive TupleExpression where
  /-- A call that leaves the types of the items to be inferred. -/
  | create (items : List CaseParameter)
  /-- A constructor call of a type, with a further tuple behind the items. -/
  | construct (type : String) (items : List CaseParameter) (rest : TupleExpression)

namespace TupleExpression

def text : TupleExpression → String
  | create items => "System.ValueTuple.Create(" ++ ", ".intercalate (items.map (·.name)) ++ ")"
  | construct type items rest =>
    "new " ++ type ++ "(" ++ ", ".intercalate (items.map (·.name) ++ [rest.text]) ++ ")"

theorem text_create (items : List CaseParameter) : (create items).text =
    "System.ValueTuple.Create(" ++ ", ".intercalate (items.map (·.name)) ++ ")" := rfl

theorem text_construct (type : String) (items : List CaseParameter) (rest : TupleExpression) :
    (construct type items rest).text =
      "new " ++ type ++ "(" ++ ", ".intercalate (items.map (·.name) ++ [rest.text]) ++ ")" := rfl

/-- The tuple that the expression makes, with the names of the parameters in place of their
values. -/
def value : TupleExpression → Packed String
  | create items => .last (items.map (·.name))
  | construct _ items rest => .more (items.map (·.name)) rest.value

/-- The type of the expression. What is inferred are the types of up to seven items; a constructor
of a type with a rest takes seven items and a tuple, and the text of this type is made of all of
their types. -/
inductive HasType : TupleExpression → Packed String → Prop
  | create {items : List CaseParameter} : 1 ≤ items.length → items.length ≤ 7 →
    HasType (.create items) (.last (items.map (·.type.qualified)))
  | construct {type : String} {restType : Packed String} {items : List CaseParameter}
    {rest : TupleExpression} : items.length = 7 → HasType rest restType →
      Packed.SpellsType type (.more (items.map (·.type.qualified)) restType) →
        HasType (.construct type items rest) (.more (items.map (·.type.qualified)) restType)

theorem HasType.unique {e : TupleExpression} {t u : Packed String} (ht : e.HasType t)
    (hu : e.HasType u) : t = u := by
  induction ht generalizing u with
  | create _ _ =>
    cases hu
    rfl
  | construct _ _ _ ih =>
    cases hu with
    | construct _ hrest _ => rw [ih hrest]

/-- The expression for parameters that are nested already. -/
def ofPacked : Packed CaseParameter → TupleExpression
  | .last items => create items
  | .more items rest =>
    construct ((Packed.more items rest).map (·.type.qualified)).typeText items (ofPacked rest)

theorem value_ofPacked (p : Packed CaseParameter) : (ofPacked p).value = p.map (·.name) := by
  induction p with
  | last items => rfl
  | more items rest ih => rw [ofPacked, value, ih, Packed.map]

theorem hasType_ofPacked {p : Packed CaseParameter} (h : p.IsLevelled) :
    (ofPacked p).HasType (p.map (·.type.qualified)) := by
  induction p with
  | last items => exact .create h.1 h.2
  | more items rest ih =>
    exact .construct h.1 (ih h.2) (Packed.spellsType_typeText (Packed.isLevelled_map h))

theorem text_ofPacked {p : Packed CaseParameter} (h : p.IsLevelled) :
    (ofPacked p).text = (p.map fun q => (q.name, q.type.qualified)).valueText := by
  induction p with
  | last items =>
    simp only [ofPacked, text_create, Packed.map, Packed.valueText_last, List.map_map,
      Function.comp_def]
  | more items rest ih =>
    have hne : items.map (·.name) ≠ [] := mt List.map_eq_nil_iff.1 h.ne_nil
    simp only [ofPacked, text_construct, ih h.2, Packed.map, Packed.valueText_more,
      Packed.map_map, List.map_map, Function.comp_def,
      String.intercalate_append_of_ne_nil hne (List.cons_ne_nil _ _),
      String.intercalate_singleton, String.append_assoc]

end TupleExpression

namespace ItemPath

/-- The names of the slots of a tuple in front of its rest. -/
def slotNames : List String := ["Item1", "Item2", "Item3", "Item4", "Item5", "Item6", "Item7"]

/-- The way along members: any number of times into the rest, then to a slot. -/
def ofMembers? : List String → Option ItemPath
  | [] => none
  | [slot] => (slotNames.idxOf? slot).map fun i => ⟨0, i + 1⟩
  | member :: others =>
    if member = "Rest" then (ofMembers? others).map fun p => { p with steps := p.steps + 1 }
    else none

/-- The way that an access to the variable `data` takes. -/
def read? (access : String) : Option ItemPath :=
  match (access.toList.splitOn '.').map String.ofList with
  | "data" :: members => ofMembers? members
  | _ => none

theorem ofMembers?_replicate (steps : Nat) {i : Nat} {slot : String}
    (h : slotNames.idxOf? slot = some i) :
    ofMembers? (List.replicate steps "Rest" ++ [slot]) = some ⟨steps, i + 1⟩ := by
  induction steps with
  | zero => simp [ofMembers?, h]
  | succ steps ih =>
    rw [List.replicate_succ, List.cons_append, ofMembers?, if_pos rfl, ih]
    · rfl
    · simp

theorem join_replicate_rest (steps : Nat) (slot : String) :
    String.join (List.replicate steps ".Rest") ++ ("." ++ slot) =
      "." ++ ".".intercalate (List.replicate steps "Rest" ++ [slot]) := by
  induction steps with
  | zero => simp
  | succ steps ih =>
    rw [List.replicate_succ, List.replicate_succ, String.join_cons, List.cons_append,
      String.intercalate_cons_of_ne_nil (by simp), String.append_assoc, ih]
    simp only [← String.append_assoc]
    rfl

/-- An access is the members on its way with dots between them. -/
theorem text_eq (steps slot : Nat) : text ⟨steps, slot⟩ =
    ".".intercalate ("data" :: (List.replicate steps "Rest" ++ [s!"Item{slot}"])) := by
  have hslot : s!".Item{slot}" = "." ++ s!"Item{slot}" := by
    simp only [ToString.toString, ← String.append_assoc]
    rfl
  rw [text, hslot, String.append_assoc, join_replicate_rest,
    String.intercalate_cons_of_ne_nil (by simp), String.append_assoc]

theorem idxOf?_slotNames : ∀ i < 7, slotNames.idxOf? s!"Item{i + 1}" = some i := by
  decide +kernel

theorem dot_notMem_of_mem_slotNames : ∀ slot ∈ slotNames, '.' ∉ slot.toList := by decide

theorem read?_text_ofPosition (n : Nat) : read? (ofPosition n).text = some (ofPosition n) := by
  obtain ⟨steps, i, h, heq⟩ : ∃ steps, ∃ i < 7, ofPosition n = ⟨steps, i + 1⟩ :=
    ⟨_, _, Nat.mod_lt n (by decide), rfl⟩
  rw [heq]
  have hslot := idxOf?_slotNames i h
  have hdots : ∀ part ∈ ("data" :: (List.replicate steps "Rest" ++ [s!"Item{i + 1}"])).map
      String.toList, '.' ∉ part := by
    simp only [List.mem_map, List.mem_cons, List.mem_append, List.mem_replicate, List.not_mem_nil,
      or_false]
    rintro _ ⟨part, rfl | ⟨_, rfl⟩ | rfl, rfl⟩
    · decide
    · decide
    · exact dot_notMem_of_mem_slotNames _ (List.isSome_idxOf?.1 (by rw [hslot]; rfl))
  have hparts : ((text ⟨steps, i + 1⟩).toList.splitOn '.').map String.ofList =
      "data" :: (List.replicate steps "Rest" ++ [s!"Item{i + 1}"]) := by
    rw [text_eq, String.toList_intercalate, show ".".toList = ['.'] from rfl,
      List.splitOn_intercalate '.' hdots (List.cons_ne_nil _ _), List.map_map]
    exact List.map_id'' (fun _ => String.ofList_toList) _
  rw [read?, hparts]
  exact ofMembers?_replicate steps hslot

/-- The way to a position leads to the item at this position, if there is one. -/
theorem follow?_ofPosition {α : Type} (xs : List α) (i : Nat) :
    follow? (ofPosition i).steps (ofPosition i).slot (Packed.ofList xs) = xs[i]? := by
  change follow? (i / 7) (i % 7 + 1) (Packed.ofList xs) = xs[i]?
  induction xs using Packed.ofList.induct generalizing i with
  | case1 xs hshort =>
    rw [Packed.ofList_of_length_le hshort]
    cases hsteps : i / 7 with
    | zero =>
      have hi : i % 7 = i := by omega
      rw [hi, follow?, Nat.add_sub_cancel]
    | succ steps =>
      have hi : xs.length ≤ i := by
        have : xs.length ≤ 7 := hshort
        omega
      rw [follow?, List.getElem?_eq_none hi]
  | case2 xs hlong ih =>
    rw [Packed.ofList_of_not_length_le hlong]
    cases hsteps : i / 7 with
    | zero =>
      have hi : i < 7 := Nat.lt_of_div_eq_zero (by decide) hsteps
      rw [Nat.mod_eq_of_lt hi, follow?, Nat.add_sub_cancel]
      exact List.getElem?_take_of_lt hi
    | succ steps =>
      -- a step into the rest leaves seven items behind
      obtain ⟨j, rfl⟩ : ∃ j, i = Packed.slots + j := ⟨i - 7, by simp only [Packed.slots]; omega⟩
      have hj : j / 7 = steps ∧ (Packed.slots + j) % 7 = j % 7 := by
        simp only [Packed.slots] at hsteps ⊢
        omega
      rw [follow?, hj.2, ← hj.1]
      exact (ih j).trans List.getElem?_drop

end ItemPath

namespace UnionCase

/-- The payload of a case as code: what packs it, what it is cast to, what unpacks it, and what all of
them agree on. -/
structure TravelsAs (c : UnionCase) (e : TupleExpression) (type : Packed String) (cast : String) :
    Prop where
  /-- The factory passes the expression to the constructor. -/
  packed : ∀ u : UnionType, ∃ header, UnitMember.nodes u (.factory c) =
    [.block header [.line s!"return new {u.descriptor.selfReference}(Tag.{c.name}, {e.text});"]]
  /-- The dispatch casts the payload and passes an access for each parameter on. -/
  unpacked : c.callLines =
    [.line s!"var data = ({cast})_data!;",
      .line (s!"return {c.name}(" ++
        ", ".intercalate ((List.range c.arity).map fun i => (ItemPath.ofPosition i).text) ++ ");")]
  hasType : ∀ t, e.HasType t ↔ t = type
  cast_spells : Packed.SpellsType cast type
  /-- If the parameters have types that can be read, then the cast is read as their tuple. -/
  cast_reads : ∀ types : List TypeRef, (∀ t ∈ types, t.WellFormed) →
    c.parameters.map (·.type.qualified) = types.map (·.render) →
      ∃ t p, TypeRef.parse cast = .ok t ∧ t.tuple? = some p ∧ p.toList = types ∧
        p.map (·.render) = type
  value_isLevelled : e.value.IsLevelled
  type_isLevelled : type.IsLevelled
  /-- The access for a position leads to the parameter and to its type. -/
  access : ∀ i, ∃ p, ItemPath.read? (ItemPath.ofPosition i).text = some p ∧
    ItemPath.follow? p.steps p.slot e.value = (c.parameters[i]?).map (·.name) ∧
    ItemPath.follow? p.steps p.slot type = (c.parameters[i]?).map (·.type.qualified)

/-- What a factory packs is what the dispatch unpacks. -/
theorem payload_travels (c : UnionCase) (h : c.parameters ≠ []) :
    ∃ e type cast, c.TravelsAs e type cast := by
  have hlevelled : (Packed.ofList c.parameters).IsLevelled := Packed.isLevelled_ofList h
  have htypes : (Packed.ofList c.parameterTypes).IsLevelled :=
    Packed.isLevelled_ofList (mt List.map_eq_nil_iff.1 h)
  have hnullary : c.isNullary = false := by simpa [isNullary] using h
  have htext : (TupleExpression.ofPacked (Packed.ofList c.parameters)).text = c.payloadValue := by
    rw [TupleExpression.text_ofPacked hlevelled, ← Packed.ofList_map, payloadValue, parameterNames,
      parameterTypes, List.zip_map']
  refine ⟨.ofPacked (.ofList c.parameters), .ofList c.parameterTypes, c.payloadType, ?_⟩
  constructor
  case packed =>
    intro u
    rw [htext, UnitMember.nodes, hnullary]
    exact ⟨_, rfl⟩
  case unpacked =>
    rw [callLines, hnullary]
    rfl
  case hasType =>
    rw [parameterTypes, Packed.ofList_map]
    have htype := TupleExpression.hasType_ofPacked hlevelled
    exact fun t => ⟨fun ht => ht.unique htype, fun heq => heq ▸ htype⟩
  case cast_spells => exact Packed.spellsType_typeText htypes
  case cast_reads =>
    intro types hread heq
    have hnested : (Packed.ofList types).map (·.render) = Packed.ofList c.parameterTypes := by
      rw [← Packed.ofList_map, ← heq, parameterTypes]
    have hlevels : (Packed.ofList types).IsLevelled := by
      refine Packed.isLevelled_ofList ?_
      rintro rfl
      exact h (List.map_eq_nil_iff.1 heq)
    have hrender := TypeRef.render_ofTuple hlevels
    refine ⟨.ofTuple (.ofList types), .ofList types, ?_, TypeRef.tuple?_ofTuple hlevels,
      Packed.toList_ofList types, hnested⟩
    rw [payloadType, ← hnested, ← hrender]
    exact TypeRef.parse_render_of_wellFormed
      (TypeRef.wellFormed_ofTuple ((Packed.toList_ofList types).symm ▸ hread))
  case value_isLevelled =>
    rw [TupleExpression.value_ofPacked]
    exact Packed.isLevelled_map hlevelled
  case type_isLevelled => exact htypes
  case access =>
    intro i
    refine ⟨_, ItemPath.read?_text_ofPosition i, ?_, ?_⟩
    · rw [TupleExpression.value_ofPacked, ← Packed.ofList_map, ItemPath.follow?_ofPosition,
        List.getElem?_map]
    · rw [ItemPath.follow?_ofPosition, parameterTypes, List.getElem?_map]

def numberedType (i : Nat) : TypeRef := .simple (.ofList ('T' :: (toString i).toList))

/-- A case with as many parameters as fill two tuples and the slot of a third. -/
def fifteenParts : UnionCase :=
  ⟨"Parts", (List.range 15).map fun i => ⟨s!"p{i}", .ofReference (numberedType i) []⟩⟩

theorem payload_travels_fifteenParts :
    fifteenParts.parameters ≠ [] ∧ ∃ e type cast, fifteenParts.TravelsAs e type cast ∧
      ∃ t p, TypeRef.parse cast = .ok t ∧ t.tuple? = some p ∧
        p.toList = (List.range 15).map numberedType := by
  have hne : fifteenParts.parameters ≠ [] := by decide
  have hread : ∀ t ∈ (List.range 15).map numberedType, t.WellFormed := by
    have hdigits : (List.range 15).all fun i => (toString i).toList.all isNamePart := by
      decide +kernel
    simp only [List.all_eq_true] at hdigits
    rw [List.forall_mem_map]
    intro i hi
    exact .named (List.cons_ne_nil _ _)
      (List.forall_mem_singleton.2 (.mk ⟨by decide +kernel, hdigits i hi⟩ nofun))
  obtain ⟨e, type, cast, h⟩ := payload_travels fifteenParts hne
  obtain ⟨t, p, hparse, htuple, hitems, -⟩ := h.cast_reads _ hread (by decide +kernel)
  exact ⟨hne, e, type, cast, h, t, p, hparse, htuple, hitems⟩

example : fifteenParts.unpacked.getLast? = some "data.Rest.Rest.Item1" := by decide +kernel

end UnionCase
end CaseUnion
