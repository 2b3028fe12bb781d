import CaseUnion.Proofs.DeclaredUnions

/-!
# Qualified names

A descriptor gets its qualified name from the descriptors of the declarations around it, and the
index makes keys on the way down, by another rule for what is empty. Both have one part for the
namespace and each declaration, but a key has lost the empty parts in front. So the two have the
same parts unless the namespace is empty, or an outermost declaration has an empty name and is
outside any namespace: `names_follow_chain`.
-/

namespace CaseUnion

namespace TypeDecl

/-- What a declaration adds to a qualified name. -/
def qualifiedPart (t : TypeDecl) : String := Descriptor.generic t.name t.typeParameters

/-- What a declaration adds to a key. -/
def keyPart (t : TypeDecl) : String := TypeRef.keyComponent t.name t.arity

end TypeDecl

/-! ### Parts between dots -/

/-- Parts with a dot between any two of them. -/
def dotted (parts : List String) : String := ".".intercalate parts

theorem dotted_cons_cons (part next : String) (rest : List String) :
    dotted (part :: next :: rest) = part ++ "." ++ dotted (next :: rest) := by
  rw [dotted, String.intercalate_cons_cons]
  rfl

theorem dotted_concat {parts : List String} (h : parts ≠ []) (last : String) :
    dotted (parts ++ [last]) = dotted parts ++ "." ++ last := by
  rw [dotted, String.intercalate_append_of_ne_nil h (List.cons_ne_nil last []),
    String.intercalate_singleton]
  rfl

/-- Parts without the empty ones in front. -/
def trimmed (parts : List String) : List String := parts.dropWhile (·.isEmpty)

theorem trimmed_cons_of_isEmpty {part : String} {rest : List String} (h : part.isEmpty) :
    trimmed (part :: rest) = trimmed rest :=
  List.dropWhile_cons_of_pos h

theorem trimmed_cons_of_not_isEmpty {part : String} {rest : List String} (h : ¬ part.isEmpty) :
    trimmed (part :: rest) = part :: rest :=
  List.dropWhile_cons_of_neg h

theorem length_dotted_trimmed_le (parts : List String) :
    (dotted (trimmed parts)).length ≤ (dotted parts).length := by
  induction parts with
  | nil => exact Nat.le_refl _
  | cons part rest ih =>
    by_cases hpart : part.isEmpty
    · rw [trimmed_cons_of_isEmpty hpart]
      cases rest with
      | nil => exact Nat.zero_le _
      | cons next rest =>
        rw [dotted_cons_cons, String.length_append]
        exact Nat.le_add_left_of_le ih
    · rw [trimmed_cons_of_not_isEmpty hpart]

/-- Nothing is lost but an empty part in front of another one. -/
theorem dotted_trimmed_eq_iff {parts : List String} :
    dotted (trimmed parts) = dotted parts ↔ ∀ rest, parts = "" :: rest → rest = [] := by
  rcases parts with _ | ⟨part, rest⟩
  · exact iff_of_true rfl fun _ h => nomatch h
  · by_cases hpart : part.isEmpty
    · obtain rfl := String.isEmpty_iff.1 hpart
      rw [trimmed_cons_of_isEmpty hpart]
      cases rest with
      | nil => exact iff_of_true rfl fun _ h => (List.cons.inj h).2.symm
      | cons next rest =>
        refine iff_of_false (fun heq => ?_) fun h => List.cons_ne_nil next rest (h _ rfl)
        have hlength := length_dotted_trimmed_le (next :: rest)
        rw [heq, dotted_cons_cons, String.empty_append, String.length_append] at hlength
        exact absurd hlength (Nat.not_le.2 (Nat.lt_add_of_pos_left (by decide)))
    · rw [trimmed_cons_of_not_isEmpty hpart]
      refine iff_of_true rfl fun _ h => absurd ?_ hpart
      rw [(List.cons.inj h).1]
      rfl

/-! ### The descriptors of enclosing declarations -/

namespace Descriptor

variable {nameSpace : Option String} {outer : List TypeDecl}

theorem chain_append (parents : List Descriptor) (decls more : List TypeDecl) :
    chain nameSpace parents (decls ++ more) = chain nameSpace (chain nameSpace parents decls) more := by
  induction decls generalizing parents with
  | nil => rfl
  | cons t rest ih => exact ih _

theorem chain_concat (outer : List TypeDecl) (t : TypeDecl) :
    chain nameSpace [] (outer ++ [t]) =
      chain nameSpace [] outer ++ [ofHeader t.header nameSpace (chain nameSpace [] outer)] :=
  chain_append [] outer [t]

theorem qualified_ofHeader (d : TypeHeader) (parents : List Descriptor) :
    (ofHeader d nameSpace parents).qualified =
      dotted (((parents.getLast?.map (·.qualified)).or nameSpace).toList ++
        [generic d.name d.typeParameters]) := by
  rw [ofHeader]
  cases (parents.getLast?.map (·.qualified)).or nameSpace with
  | none => rfl
  | some outer => exact (dotted_concat (List.cons_ne_nil outer []) _).symm

theorem qualified_ofHeader_chain (outer : List TypeDecl) (t : TypeDecl) :
    (ofHeader t.header nameSpace (chain nameSpace [] outer)).qualified =
      dotted (nameSpace.toList ++ (outer ++ [t]).map (·.qualifiedPart)) := by
  rw [qualified_ofHeader, List.map_append, ← List.append_assoc]
  -- A descriptor reads the last of its parents only, so the induction goes outward from there.
  induction outer using List.reverseRecOn generalizing t with
  | nil =>
    rw [List.map_nil, List.append_nil]
    rfl
  | append_singleton outer last ih =>
    have hne : nameSpace.toList ++ (outer ++ [last]).map (·.qualifiedPart) ≠ [] := by simp
    rw [chain_concat, List.getLast?_concat, Option.map_some, Option.some_or, Option.toList_some,
      dotted_concat (List.cons_ne_nil _ []), List.map_singleton, dotted_concat hne,
      qualified_ofHeader, ih, List.map_append, List.append_assoc]
    rfl

/-- A parent stands in the declarations of the parents in front of it. -/
theorem parents_of_getElem?_chain {i : Nat} {p : Descriptor}
    (h : (chain nameSpace [] outer)[i]? = some p) :
    p.parents = (chain nameSpace [] outer).take i := by
  induction outer using List.reverseRecOn with
  | nil => cases h
  | append_singleton outer last ih =>
    rw [chain_concat] at h ⊢
    rcases Nat.lt_or_ge i (chain nameSpace [] outer).length with hlt | hge
    · rw [List.getElem?_append_left hlt] at h
      rw [ih h, List.take_append_of_le_length hlt.le]
    · rw [List.getElem?_append_right hge, List.getElem?_singleton,
        Option.ite_none_right_eq_some] at h
      obtain ⟨hlast, heq⟩ := h
      obtain rfl := Nat.le_antisymm (Nat.sub_eq_zero_iff_le.1 hlast) hge
      rw [← Option.some.inj heq, List.take_left]
      rfl

end Descriptor

/-! ### Keys -/

theorem keyFrom_eq_dotted (path : String) (decls : List TypeDecl) :
    keyFrom path decls = dotted (trimmed (path :: decls.map (·.keyPart))) := by
  induction decls generalizing path with
  | nil =>
    by_cases hpath : path.isEmpty
    · rw [List.map_nil, trimmed_cons_of_isEmpty hpath]
      exact String.isEmpty_iff.1 hpath
    · rw [List.map_nil, trimmed_cons_of_not_isEmpty hpath]
      exact String.intercalate_singleton.symm
  | cons t rest ih =>
    have hrest : keyFrom path (t :: rest) = keyFrom (innerKey path t.header) rest := rfl
    rw [hrest, ih, List.map_cons, innerKey]
    by_cases hpath : path.isEmpty
    · rw [if_pos hpath, trimmed_cons_of_isEmpty hpath]
      rfl
    · have hlonger : ¬ (path ++ "." ++ t.keyPart).isEmpty := by simp
      rw [if_neg hpath, trimmed_cons_of_not_isEmpty hpath, dotted_cons_cons]
      exact (congrArg dotted (trimmed_cons_of_not_isEmpty hlonger)).trans
        String.intercalate_cons_append

theorem TypeDecl.keyPart_eq_empty_iff {t : TypeDecl} :
    t.keyPart = "" ↔ t.name = "" ∧ t.arity = 0 := by
  rw [keyPart, TypeRef.keyComponent]
  split
  · rename_i harity
    exact (and_iff_left harity).symm
  · rename_i harity
    exact iff_of_false (by simp [toString]) fun h => harity h.2

/-- Only an empty namespace, or without one an empty outermost name, leaves an empty part in front
of another one. -/
theorem keyParts_front_iff {nameSpace : Option String} {outer : List TypeDecl} {t : TypeDecl} :
    (∀ rest, nameSpace.toList ++ (outer ++ [t]).map (·.keyPart) = "" :: rest → rest = []) ↔
      nameSpace ≠ some "" ∧
        (nameSpace = none → ∀ o ∈ outer.head?, o.name ≠ "" ∨ o.arity ≠ 0) := by
  have hfront : ∀ (part : String) (l : List String), l ≠ [] →
      ((∀ rest, part :: l = "" :: rest → rest = []) ↔ part ≠ "") := by
    intro part l hl
    constructor
    · rintro h rfl
      exact hl (h l rfl)
    · intro h rest heq
      exact absurd (List.cons.inj heq).1 h
  cases nameSpace with
  | some n =>
    rw [Option.toList_some, List.singleton_append, hfront n _ (by simp)]
    simp
  | none =>
    cases outer with
    | nil =>
      refine iff_of_true ?_ ⟨nofun, fun _ => nofun⟩
      exact fun _ heq => (List.cons.inj heq).2.symm
    | cons o outer =>
      have hparts : (none : Option String).toList ++ (o :: outer ++ [t]).map (·.keyPart) =
          o.keyPart :: (outer ++ [t]).map (·.keyPart) := rfl
      rw [hparts, hfront o.keyPart _ (by simp), Ne, TypeDecl.keyPart_eq_empty_iff,
        Decidable.not_and_iff_not_or_not]
      constructor
      · exact fun h => ⟨nofun, fun _ _ ho => Option.some.inj ho ▸ h⟩
      · exact fun h => h.2 rfl o rfl

/-! ### The way up -/

theorem cons_prefix_drop {α : Type} {x : α} {xs l : List α} {n : Nat} (h : x :: xs <+: l.drop n) :
    l[n]? = some x ∧ xs <+: l.drop (n + 1) := by
  obtain ⟨rest, h⟩ := h
  constructor
  · rw [← Nat.add_zero n, ← List.getElem?_drop, ← h]
    rfl
  · rw [← List.drop_drop, ← h]
    exact List.prefix_append xs rest

theorem append_prefix_drop {α : Type} {xs ys l : List α} {n : Nat} (h : xs ++ ys <+: l.drop n) :
    xs <+: l.drop n ∧ ys <+: l.drop (n + xs.length) := by
  obtain ⟨rest, h⟩ := h
  rw [List.append_assoc] at h
  constructor
  · exact ⟨ys ++ rest, h⟩
  · rw [← List.drop_drop, ← h, List.drop_left]
    exact List.prefix_append ys rest

namespace Compilation

/-- The declarations that are found from an id on by going to the one directly around, with their
ids, outermost first. -/
inductive Around (c : Compilation) : Option Nat → List (Nat × Entry) → Prop
  | outermost : Around c none []
  | inside {id : Nat} {e : Entry} {outer : List (Nat × Entry)} :
    c.entryOf? id = some e → Around c e.parent outer → Around c (some id) (outer ++ [(id, e)])

/-- The way up from a place leads through the declarations around it, all in one document. -/
def Encloses (c : Compilation) (document : Nat) (parent : Option Nat)
    (enclosing : List TypeDecl) : Prop :=
  ∃ outer, c.Around parent outer ∧ enclosing = outer.map (·.2.decl) ∧
    ∀ x ∈ outer, x.2.document = document

section
variable {c : Compilation} {e : Entry}

theorem Around.unique {parent : Option Nat} {outer outer' : List (Nat × Entry)}
    (h : c.Around parent outer) (h' : c.Around parent outer') : outer = outer' := by
  induction h generalizing outer' with
  | outermost =>
    cases h'
    rfl
  | inside he _ ih =>
    cases h' with
    | inside he' hup =>
      obtain rfl := Option.some.inj (he.symm.trans he')
      rw [ih hup]

theorem Encloses.inside {id : Nat} (h : c.Encloses e.document e.parent e.enclosing)
    (he : c.entryOf? id = some e) :
    c.Encloses e.document (some id) (e.enclosing ++ [e.decl]) := by
  obtain ⟨outer, hup, henclosing, hdocument⟩ := h
  refine ⟨outer ++ [(id, e)], .inside he hup, ?_, ?_⟩
  · rw [henclosing, List.map_append]
    rfl
  · exact List.forall_mem_append.2 ⟨hdocument, List.forall_mem_singleton.2 rfl⟩

mutual

theorem encloses_of_mem_ofDecl : ∀ (p : Place) (decl : TypeDecl),
    c.Encloses p.document p.parent p.enclosing → Entry.ofDecl p decl <+: c.entries.drop p.next →
      e ∈ Entry.ofDecl p decl → c.Encloses e.document e.parent e.enclosing
  | p, ⟨header, members⟩, hp, hat, h => by
    rw [Entry.ofDecl] at hat h
    obtain ⟨hown, hinner⟩ := cons_prefix_drop hat
    rcases List.mem_cons.1 h with rfl | h
    · exact hp
    · exact encloses_of_mem_ofMembers _ members (Encloses.inside hp hown) hinner h

theorem encloses_of_mem_ofMembers : ∀ (p : Place) (members : List Member),
    c.Encloses p.document p.parent p.enclosing →
      Entry.ofMembers p members <+: c.entries.drop p.next →
      e ∈ Entry.ofMembers p members → c.Encloses e.document e.parent e.enclosing
  | p, [], _, _, h => by
    rw [Entry.ofMembers] at h
    cases h
  | p, .method _ :: rest, hp, hat, h => by
    rw [Entry.ofMembers] at hat h
    exact encloses_of_mem_ofMembers p rest hp hat h
  | p, .type decl :: rest, hp, hat, h => by
    rw [Entry.ofMembers] at hat h
    obtain ⟨hinner, hrest⟩ := append_prefix_drop hat
    rcases List.mem_append.1 h with h | h
    · exact encloses_of_mem_ofDecl p decl hp hinner h
    · refine encloses_of_mem_ofMembers _ rest ?_ hrest h
      exact hp

end

theorem encloses_of_mem_ofDecls {p : Place} {decls : List TypeDecl}
    (hp : c.Encloses p.document p.parent p.enclosing)
    (hat : Entry.ofDecls p decls <+: c.entries.drop p.next) (h : e ∈ Entry.ofDecls p decls) :
    c.Encloses e.document e.parent e.enclosing := by
  induction decls generalizing p with
  | nil =>
    rw [Entry.ofDecls] at h
    cases h
  | cons decl rest ih =>
    rw [Entry.ofDecls] at hat h
    obtain ⟨hinner, hrest⟩ := append_prefix_drop hat
    rcases List.mem_append.1 h with h | h
    · exact encloses_of_mem_ofDecl p decl hp hinner h
    · refine ih ?_ hrest h
      exact hp

theorem encloses_of_mem_ofDocuments {position next : Nat} {documents : List Document}
    (hat : Entry.ofDocuments position next documents <+: c.entries.drop next)
    (h : e ∈ Entry.ofDocuments position next documents) :
    c.Encloses e.document e.parent e.enclosing := by
  induction documents generalizing position next with
  | nil =>
    rw [Entry.ofDocuments] at h
    cases h
  | cons d rest ih =>
    rw [Entry.ofDocuments] at hat h
    obtain ⟨hinner, hrest⟩ := append_prefix_drop hat
    rcases List.mem_append.1 h with h | h
    · refine encloses_of_mem_ofDecls ⟨[], .outermost, rfl, ?_⟩ hinner h
      exact fun _ hx => absurd hx List.not_mem_nil
    · exact ih hrest h

theorem encloses_of_mem {documents : List Document} (h : e ∈ (ofDocuments documents).entries) :
    (ofDocuments documents).Encloses e.document e.parent e.enclosing :=
  encloses_of_mem_ofDocuments List.prefix_rfl h

/-- The parents that a descriptor has are the descriptors of the declarations on the way up. -/
theorem chain_of_around {documents : List Document} {parent : Option Nat}
    {outer : List (Nat × Entry)} (h : (ofDocuments documents).Around parent outer)
    (nameSpace : Option String) :
    Descriptor.chain nameSpace [] (outer.map (·.2.decl)) =
      outer.map fun x => .ofEntry x.2 nameSpace := by
  induction h with
  | outermost => rfl
  | @inside id e outer he hup ih =>
    -- The way up from an entry is the only one, so it leads through what the entry lists.
    obtain ⟨outer', hup', henclosing, -⟩ := encloses_of_mem (List.mem_of_getElem? he)
    obtain rfl := hup.unique hup'
    rw [List.map_append, List.map_singleton, Descriptor.chain_concat, ih, List.map_append,
      List.map_singleton, Descriptor.ofEntry, henclosing, ih]

end

/-! ### Names and keys -/

/-- A declaration with those around it, outermost first. Its qualified name and its key are written
from the same declarations, and so is what is known of its parents. -/
structure FollowsChain (c : Compilation) (d : Document) (e : Entry) (outer : List (Nat × Entry)) :
    Prop where
  around : c.Around e.parent outer
  chain : e.chain = outer.map (·.2.decl) ++ [e.decl]
  document : ∀ x ∈ outer, x.2.document = e.document
  qualified : (Descriptor.ofEntry e d.nameSpace).qualified =
    dotted (d.nameSpace.toList ++ e.chain.map (·.qualifiedPart))
  key : e.key = dotted (trimmed (d.nameSpace.toList ++ e.chain.map (·.keyPart)))
  /-- When the key has all parts that the qualified name has. -/
  key_iff : e.key = dotted (d.nameSpace.toList ++ e.chain.map (·.keyPart)) ↔
    d.nameSpace ≠ some "" ∧
      (d.nameSpace = none → ∀ t ∈ e.enclosing.head?, t.name ≠ "" ∨ t.arity ≠ 0)
  parents : (Descriptor.ofEntry e d.nameSpace).parents = outer.map fun x => .ofEntry x.2 d.nameSpace
  parents_take : ∀ i p, (Descriptor.ofEntry e d.nameSpace).parents[i]? = some p →
    p.parents = (Descriptor.ofEntry e d.nameSpace).parents.take i

theorem names_follow_chain {documents : List Document} {id : Nat} {e : Entry}
    (he : (ofDocuments documents).entryOf? id = some e) :
    ∃ d outer, (ofDocuments documents).documentOf? e = some d ∧
      (ofDocuments documents).FollowsChain d e outer := by
  have hmem : e ∈ (ofDocuments documents).entries := List.mem_of_getElem? he
  obtain ⟨d, hd⟩ := exists_documentOf? hmem
  obtain ⟨outer, hup, henclosing, hdocument⟩ := encloses_of_mem hmem
  have hkey : e.key = dotted (trimmed (d.nameSpace.toList ++ e.chain.map (·.keyPart))) := by
    rw [key_eq_keyFrom hmem hd, keyFrom_eq_dotted]
    cases d.nameSpace <;> rfl
  refine ⟨d, outer, hd, ?_⟩
  constructor
  case around => exact hup
  case chain => rw [Entry.chain, henclosing]
  case document => exact hdocument
  case qualified => exact Descriptor.qualified_ofHeader_chain e.enclosing e.decl
  case key => exact hkey
  case key_iff =>
    rw [hkey, dotted_trimmed_eq_iff, Entry.chain]
    exact keyParts_front_iff
  case parents =>
    rw [Descriptor.ofEntry, Descriptor.ofHeader, henclosing]
    exact chain_of_around hup d.nameSpace
  case parents_take => exact fun i p h => Descriptor.parents_of_getElem?_chain h

theorem names_follow_nestedUnions : ∃ e outer, (ofDocuments [nestedUnions]).entryOf? 1 = some e ∧
    (ofDocuments [nestedUnions]).FollowsChain nestedUnions e outer ∧
    (Descriptor.ofEntry e (some "Demo")).qualified = "Demo.Outer<T>.Pair<U>" ∧
    e.key = "Demo.Outer`1.Pair`1" := by
  obtain ⟨d, outer, hd, hnames⟩ :=
    names_follow_chain (show (ofDocuments [nestedUnions]).entryOf? 1 = some _ from rfl)
  obtain rfl := Option.some.inj hd
  exact ⟨_, outer, rfl, hnames, rfl, rfl⟩

/-- A document with an empty namespace. -/
def emptyNameSpace : Document where
  path := "shapes.json"
  nameSpace := some ""
  types := [⟨{ name := "Shape", kind := .structType }, []⟩]

/-- No parts in front of the name give both the qualified name and the key. -/
theorem key_drops_emptyNameSpace : ∃ e, (ofDocuments [emptyNameSpace]).entryOf? 0 = some e ∧
    (Descriptor.ofEntry e (some "")).qualified = ".Shape" ∧ e.key = "Shape" ∧
    ¬ ∃ front, (Descriptor.ofEntry e (some "")).qualified = dotted (front ++ ["Shape"]) ∧
      e.key = dotted (front ++ ["Shape"]) := by
  refine ⟨_, rfl, rfl, rfl, ?_⟩
  rintro ⟨front, hqualified, hkey⟩
  have hsame : ".Shape" = "Shape" := hqualified.trans hkey.symm
  exact absurd hsame (by decide)

end Compilation
end CaseUnion
