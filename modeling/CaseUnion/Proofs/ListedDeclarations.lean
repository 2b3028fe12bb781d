import CaseUnion.Proofs.QualifiedNames

/-!
# The listing of declarations

A declaration has an address: the position of its document, the position of the outermost
declaration in it, and the positions of members on the way down. Addresses in lexicographic order
are documents in order, each declaration before those inside it, and members in order. The ids of
the index are the positions of the addresses in this order, and the parent of an id is the id of the
address without its last position: `index_lists_declarations`.
-/

namespace CaseUnion

/-! ### Addresses -/

/-- The declarations on the way down along positions of members, outermost first. -/
def Member.along? (members : List Member) : List Nat → Option (List TypeDecl)
  | [] => some []
  | i :: rest =>
    match members[i]? with
    | some (.type decl) => (along? decl.members rest).map (decl :: ·)
    | _ => none

mutual

/-- The addresses of a declaration and those inside it, from the declaration on. -/
def TypeDecl.addresses : TypeDecl → List (List Nat)
  | ⟨_, members⟩ => [] :: Member.addressesFrom 0 members

/-- The addresses of the declarations in members of which the first has the given position. -/
def Member.addressesFrom (i : Nat) : List Member → List (List Nat)
  | [] => []
  | .method _ :: rest => Member.addressesFrom (i + 1) rest
  | .type decl :: rest => decl.addresses.map (i :: ·) ++ Member.addressesFrom (i + 1) rest

end

namespace Document

def members (d : Document) : List Member := d.types.map .type

/-- The addresses of the declarations in documents of which the first has the given position. -/
def addressesFrom (k : Nat) : List Document → List (List Nat)
  | [] => []
  | d :: rest => (Member.addressesFrom 0 d.members).map (k :: ·) ++ addressesFrom (k + 1) rest

end Document

namespace Compilation

def addresses (documents : List Document) : List (List Nat) := Document.addressesFrom 0 documents

/-- The declarations from the outermost one to the one with an address. -/
def chainAt? (documents : List Document) : List Nat → Option (List TypeDecl)
  | k :: i :: rest => documents[k]?.bind fun d => Member.along? d.members (i :: rest)
  | _ => none

end Compilation

/-! ### What is listed -/

/-- The member is a type, and from it on there is a declaration with an address. -/
def Member.Leads : Member → List Nat → Prop
  | .method _, _ => False
  | .type decl, rest => (along? decl.members rest).isSome

theorem Member.isSome_along?_cons_iff {members : List Member} {i : Nat} {rest : List Nat} :
    (along? members (i :: rest)).isSome ↔ ∃ m, members[i]? = some m ∧ m.Leads rest := by
  rw [along?]
  rcases members[i]? with _ | (decl | m) <;> simp [Leads]

/-- An address below one of some positions is below the first of them or below a later one. -/
theorem exists_position_cons_iff {α : Type} {P : α → List Nat → Prop} {x : α} {xs : List α}
    {i : Nat} {a : List Nat} :
    (∃ j y rest, a = (i + j) :: rest ∧ (x :: xs)[j]? = some y ∧ P y rest) ↔
      (∃ rest, a = i :: rest ∧ P x rest) ∨
        ∃ j y rest, a = (i + 1 + j) :: rest ∧ xs[j]? = some y ∧ P y rest := by
  have hnext (j : Nat) (rest : List Nat) : (i + (j + 1)) :: rest = (i + 1 + j) :: rest :=
    congrArg (· :: rest) (Nat.succ_add_eq_add_succ i j).symm
  constructor
  · rintro ⟨_ | j, y, rest, rfl, hj, h⟩
    · obtain rfl := Option.some.inj hj
      exact .inl ⟨rest, rfl, h⟩
    · exact .inr ⟨j, y, rest, hnext j rest, hj, h⟩
  · rintro (⟨rest, rfl, h⟩ | ⟨j, y, rest, rfl, hj, h⟩)
    · exact ⟨0, x, rest, rfl, rfl, h⟩
    · exact ⟨j + 1, y, rest, (hnext j rest).symm, hj, h⟩

mutual

theorem mem_addresses_iff : ∀ {decl : TypeDecl} {a : List Nat},
    a ∈ decl.addresses ↔ (Member.along? decl.members a).isSome
  | ⟨header, members⟩, [] => by
    rw [TypeDecl.addresses]
    exact iff_of_true List.mem_cons_self rfl
  | ⟨header, members⟩, i :: rest => by
    rw [TypeDecl.addresses, List.mem_cons, mem_addressesFrom_iff, Member.isSome_along?_cons_iff]
    simp

theorem mem_addressesFrom_iff : ∀ {members : List Member} {i : Nat} {a : List Nat},
    a ∈ Member.addressesFrom i members ↔
      ∃ j m rest, a = (i + j) :: rest ∧ members[j]? = some m ∧ m.Leads rest
  | [], i, a => by
    rw [Member.addressesFrom]
    simp
  | .method m :: others, i, a => by
    rw [Member.addressesFrom, mem_addressesFrom_iff, exists_position_cons_iff]
    exact (or_iff_right fun ⟨_, _, h⟩ => h).symm
  | .type own :: others, i, a => by
    rw [Member.addressesFrom, List.mem_append, List.mem_map, mem_addressesFrom_iff,
      exists_position_cons_iff]
    simp only [mem_addresses_iff, Member.Leads, and_comm, eq_comm]

end

theorem Member.mem_addressesFrom_zero_iff {members : List Member} {a : List Nat} :
    a ∈ addressesFrom 0 members ↔ a ≠ [] ∧ (along? members a).isSome := by
  cases a with
  | nil => simp [mem_addressesFrom_iff]
  | cons i rest => simp [mem_addressesFrom_iff, isSome_along?_cons_iff]

theorem Document.mem_addressesFrom_iff {documents : List Document} {k : Nat} {a : List Nat} :
    a ∈ addressesFrom k documents ↔ ∃ j d rest, a = (k + j) :: rest ∧ documents[j]? = some d ∧
      rest ≠ [] ∧ (Member.along? d.members rest).isSome := by
  induction documents generalizing k with
  | nil =>
    rw [addressesFrom]
    simp
  | cons own others ih =>
    rw [addressesFrom, List.mem_append, List.mem_map, ih, exists_position_cons_iff]
    simp only [Member.mem_addressesFrom_zero_iff, and_comm, eq_comm]

theorem Compilation.mem_addresses_iff {documents : List Document} {a : List Nat} :
    a ∈ addresses documents ↔ (chainAt? documents a).isSome := by
  rw [addresses, Document.mem_addressesFrom_iff]
  rcases a with _ | ⟨k, _ | ⟨i, rest⟩⟩
  · simp [chainAt?]
  · simp [chainAt?]
  · rw [chainAt?]
    cases hd : documents[k]? <;> simp [hd]

/-! ### Their order -/

/-- Addresses below one position come before those below later positions. -/
theorem pairwise_append_of_lt {i : Nat} {inner later : List (List Nat)}
    (hinner : inner.Pairwise (· < ·)) (hlater : later.Pairwise (· < ·))
    (hfirst : ∀ b ∈ later, ∃ j rest, b = j :: rest ∧ i < j) :
    (inner.map (i :: ·) ++ later).Pairwise (· < ·) := by
  refine List.pairwise_append.2 ⟨List.pairwise_map.2 ?_, hlater, fun a ha b hb => ?_⟩
  · exact hinner.imp fun h => List.cons_lt_cons_iff.2 (.inr ⟨rfl, h⟩)
  · obtain ⟨rest, -, rfl⟩ := List.mem_map.1 ha
    obtain ⟨j, rest', rfl, hlt⟩ := hfirst b hb
    exact List.cons_lt_cons_iff.2 (.inl hlt)

mutual

theorem pairwise_addresses : ∀ decl : TypeDecl, decl.addresses.Pairwise (· < ·)
  | ⟨header, members⟩ => by
    rw [TypeDecl.addresses, List.pairwise_cons]
    refine ⟨fun a ha => ?_, pairwise_addressesFrom 0 members⟩
    obtain ⟨j, m, rest, rfl, -⟩ := mem_addressesFrom_iff.1 ha
    exact List.nil_lt_cons _ _

theorem pairwise_addressesFrom : ∀ (i : Nat) (members : List Member),
    (Member.addressesFrom i members).Pairwise (· < ·)
  | i, [] => by
    rw [Member.addressesFrom]
    exact .nil
  | i, .method m :: others => by
    rw [Member.addressesFrom]
    exact pairwise_addressesFrom (i + 1) others
  | i, .type own :: others => by
    rw [Member.addressesFrom]
    refine pairwise_append_of_lt (pairwise_addresses own) (pairwise_addressesFrom (i + 1) others) ?_
    intro b hb
    obtain ⟨j, m, rest, rfl, -⟩ := mem_addressesFrom_iff.1 hb
    exact ⟨_, rest, rfl, Nat.lt_of_succ_le (Nat.le_add_right _ j)⟩

end

theorem Document.pairwise_addressesFrom (k : Nat) (documents : List Document) :
    (addressesFrom k documents).Pairwise (· < ·) := by
  induction documents generalizing k with
  | nil => exact .nil
  | cons own others ih =>
    refine pairwise_append_of_lt (CaseUnion.pairwise_addressesFrom 0 own.members) (ih (k + 1)) ?_
    intro b hb
    obtain ⟨j, d, rest, rfl, -⟩ := mem_addressesFrom_iff.1 hb
    exact ⟨_, rest, rfl, Nat.lt_of_succ_le (Nat.le_add_right _ j)⟩

namespace Compilation

variable {documents : List Document}

theorem pairwise_addresses (documents : List Document) :
    (addresses documents).Pairwise (· < ·) :=
  Document.pairwise_addressesFrom 0 documents

theorem lt_of_addresses_lt {i j : Nat} {a b : List Nat} (hi : (addresses documents)[i]? = some a)
    (hj : (addresses documents)[j]? = some b) (h : a < b) : i < j := by
  obtain ⟨hilength, rfl⟩ := List.getElem?_eq_some_iff.1 hi
  obtain ⟨hjlength, rfl⟩ := List.getElem?_eq_some_iff.1 hj
  rcases Nat.lt_trichotomy i j with hlt | rfl | hgt
  · exact hlt
  · exact absurd h (List.lt_irrefl _)
  · have hafter :=
      List.pairwise_iff_getElem.1 (pairwise_addresses documents) j i hjlength hilength hgt
    exact absurd hafter (List.lt_asymm h)

theorem eq_of_getElem?_addresses {i j : Nat} {a : List Nat}
    (hi : (addresses documents)[i]? = some a) (hj : (addresses documents)[j]? = some a) :
    i = j := by
  have hnodup : (addresses documents).Nodup := by
    refine (pairwise_addresses documents).imp ?_
    rintro a _ hlt rfl
    exact List.lt_irrefl a hlt
  obtain ⟨hlength, -⟩ := List.getElem?_eq_some_iff.1 hi
  exact (List.getElem?_inj hlength hnodup).1 (hi.trans hj.symm)

/-! ### Entries at addresses -/

/-- An entry is that of the declaration with an address. -/
structure StandsAt (documents : List Document) (e : Entry) (a : List Nat) : Prop where
  document : a.head? = some e.document
  chain : chainAt? documents a = some e.chain
  parent : ∀ q, e.parent = some q ↔ (addresses documents)[q]? = some a.dropLast

/-- A listing has come to what is directly inside an address. -/
structure Enters (documents : List Document) (p : Place) (around : List Nat) : Prop where
  document : around.head? = some p.document
  parent : ∀ q, p.parent = some q ↔ (addresses documents)[q]? = some around

-- Both lists grow together: the addresses still ahead begin with those that are listed here, so the
-- id that the next entry gets is the position of its address.
mutual

theorem standsAt_ofDecl : ∀ (p : Place) (around : List Nat) (i : Nat) (decl : TypeDecl),
    Enters documents p around →
    (∀ rest, chainAt? documents (around ++ i :: rest) =
      (Member.along? decl.members rest).map fun inner => p.enclosing ++ decl :: inner) →
    decl.addresses.map (around ++ i :: ·) <+: (addresses documents).drop p.next →
    List.Forall₂ (StandsAt documents) (Entry.ofDecl p decl) (decl.addresses.map (around ++ i :: ·))
  | p, around, i, ⟨header, members⟩, hp, hchain, hat => by
    have hinside : (around ++ i :: · : List Nat → List Nat) = (around ++ [i] ++ ·) := by
      funext a
      rw [List.append_assoc, List.singleton_append]
    rw [TypeDecl.addresses, List.map_cons] at hat ⊢
    obtain ⟨hown, hinner⟩ := cons_prefix_drop hat
    have hhead : (around ++ [i]).head? = some p.document := by
      rw [List.head?_append, hp.document, Option.some_or]
    rw [Entry.ofDecl]
    refine .cons ⟨hhead, hchain [], ?_⟩ ?_
    · rw [List.dropLast_concat]
      exact hp.parent
    · rw [hinside] at hinner ⊢
      refine standsAt_ofMembers _ (around ++ [i]) 0 members ⟨hhead, fun q => ⟨?_, ?_⟩⟩ ?_ hinner
      · rintro ⟨⟩
        exact hown
      · exact fun hq => congrArg some (eq_of_getElem?_addresses hown hq)
      · intro j decl rest hj
        rw [List.append_assoc, List.singleton_append, Nat.zero_add, hchain, Member.along?, hj,
          Option.map_map]
        congr 1
        funext inner
        exact (List.append_assoc p.enclosing [_] _).symm

theorem standsAt_ofMembers : ∀ (p : Place) (around : List Nat) (i : Nat) (members : List Member),
    Enters documents p around →
    (∀ j decl rest, members[j]? = some (.type decl) →
      chainAt? documents (around ++ (i + j) :: rest) =
        (Member.along? decl.members rest).map fun inner => p.enclosing ++ decl :: inner) →
    (Member.addressesFrom i members).map (around ++ ·) <+: (addresses documents).drop p.next →
    List.Forall₂ (StandsAt documents) (Entry.ofMembers p members)
      ((Member.addressesFrom i members).map (around ++ ·))
  | p, around, i, [], _, _, _ => by
    rw [Entry.ofMembers, Member.addressesFrom]
    exact .nil
  | p, around, i, .method m :: others, hp, hchain, hat => by
    rw [Member.addressesFrom] at hat ⊢
    rw [Entry.ofMembers]
    refine standsAt_ofMembers p around (i + 1) others hp (fun j decl rest hj => ?_) hat
    rw [Nat.add_assoc, Nat.add_comm 1]
    exact hchain (j + 1) decl rest hj
  | p, around, i, .type own :: others, hp, hchain, hat => by
    rw [Member.addressesFrom, List.map_append, List.map_map] at hat ⊢
    obtain ⟨hinner, hothers⟩ := append_prefix_drop hat
    have hown := standsAt_ofDecl p around i own hp (fun rest => hchain 0 own rest rfl) hinner
    rw [Entry.ofMembers]
    refine List.rel_append hown (standsAt_ofMembers _ around (i + 1) others ?_ ?_ ?_)
    · exact ⟨hp.document, hp.parent⟩
    · intro j decl rest hj
      rw [Nat.add_assoc, Nat.add_comm 1]
      exact hchain (j + 1) decl rest hj
    · rw [hown.length_eq]
      exact hothers

end

theorem ofDecls_eq_ofMembers (p : Place) (decls : List TypeDecl) :
    Entry.ofDecls p decls = Entry.ofMembers p (decls.map .type) := by
  induction decls generalizing p with
  | nil => rw [Entry.ofDecls, List.map_nil, Entry.ofMembers]
  | cons decl rest ih => rw [Entry.ofDecls, List.map_cons, Entry.ofMembers, ih]

theorem enters_document (documents : List Document) (position next : Nat) (path : String) :
    Enters documents ⟨position, next, none, [], path⟩ [position] := by
  refine ⟨rfl, fun q => iff_of_false nofun fun hq => ?_⟩
  have hsome := mem_addresses_iff.1 (List.mem_of_getElem? hq)
  cases hsome

theorem standsAt_ofDocuments {position next : Nat} {others : List Document}
    (hothers : others <+: documents.drop position)
    (hat : Document.addressesFrom position others <+: (addresses documents).drop next) :
    List.Forall₂ (StandsAt documents) (Entry.ofDocuments position next others)
      (Document.addressesFrom position others) := by
  induction others generalizing position next with
  | nil => exact .nil
  | cons d others ih =>
    rw [Document.addressesFrom] at hat ⊢
    obtain ⟨hinner, hat⟩ := append_prefix_drop hat
    obtain ⟨hd, hothers⟩ := cons_prefix_drop hothers
    have hown := standsAt_ofMembers ⟨position, next, none, [], d.nameSpace.getD ""⟩ [position] 0
      d.members (enters_document documents position next _) ?_ hinner
    · have hmembers (p : Place) : Entry.ofDecls p d.types = Entry.ofMembers p d.members :=
        ofDecls_eq_ofMembers p d.types
      rw [Entry.ofDocuments, hmembers]
      refine List.rel_append hown (ih hothers ?_)
      rw [hown.length_eq]
      exact hat
    · intro j decl rest hj
      rw [Nat.zero_add, List.singleton_append, chainAt?, hd, Option.bind_some, Member.along?, hj]
      rfl

theorem standsAt_entries (documents : List Document) :
    List.Forall₂ (StandsAt documents) (ofDocuments documents).entries (addresses documents) :=
  standsAt_ofDocuments List.prefix_rfl List.prefix_rfl

theorem exists_standsAt {id : Nat} {a : List Nat} (ha : (addresses documents)[id]? = some a) :
    ∃ e, (ofDocuments documents).entryOf? id = some e ∧ StandsAt documents e a := by
  have hentries := standsAt_entries documents
  obtain ⟨hlength, rfl⟩ := List.getElem?_eq_some_iff.1 ha
  have hid : id < (ofDocuments documents).entries.length := hentries.length_eq ▸ hlength
  exact ⟨_, List.getElem?_eq_getElem hid, hentries.get hid hlength⟩

/-! ### The index -/

theorem dropLast_lt {a : List Nat} (h : a ≠ []) : a.dropLast < a := by
  induction a with
  | nil => exact absurd rfl h
  | cons i rest ih =>
    cases rest with
    | nil => exact List.nil_lt_cons i []
    | cons j rest =>
      rw [List.dropLast_cons_of_ne_nil (List.cons_ne_nil j rest)]
      exact List.cons_lt_cons_iff.2 (.inr ⟨rfl, ih (List.cons_ne_nil j rest)⟩)

/-- A declaration in the index: the one with an address, under the position of this address among
all addresses. -/
structure ListedAt (documents : List Document) (id : Nat) (a : List Nat) (e : Entry) (d : Document)
    (outer : List (Nat × Entry)) : Prop where
  entry : (ofDocuments documents).entryOf? id = some e
  parent : ∀ q, e.parent = some q ↔ (addresses documents)[q]? = some a.dropLast
  smaller : ∀ q, e.parent = some q → q < id
  /-- There is one way up, and it ends. -/
  around : ∀ other, (ofDocuments documents).Around e.parent other ↔ other = outer
  chain : chainAt? documents a = some (outer.map (·.2.decl) ++ [e.decl])
  enclosing : e.enclosing = outer.map (·.2.decl)
  position : ∃ k, a.head? = some k ∧ documents[k]? = some d
  document : (ofDocuments documents).documentOf? e = some d
  sameDocument : ∀ x ∈ outer, (ofDocuments documents).documentOf? x.2 = some d

/-- The ids of the index are the positions of all addresses in their order. -/
theorem index_lists_declarations (documents : List Document) :
    (addresses documents).Pairwise (· < ·) ∧
      (∀ a, a ∈ addresses documents ↔ (chainAt? documents a).isSome) ∧
      (ofDocuments documents).entries.length = (addresses documents).length ∧
      ∀ id a, (addresses documents)[id]? = some a →
        ∃ e d outer, ListedAt documents id a e d outer := by
  refine ⟨pairwise_addresses documents, fun _ => mem_addresses_iff,
    (standsAt_entries documents).length_eq, fun id a ha => ?_⟩
  obtain ⟨e, he, hposition, hchain, hparent⟩ := exists_standsAt ha
  have hmem := List.mem_of_getElem? he
  obtain ⟨d, hd⟩ := exists_documentOf? hmem
  obtain ⟨outer, hup, henclosing, hdocuments⟩ := encloses_of_mem hmem
  refine ⟨e, d, outer, ?_⟩
  constructor
  case entry => exact he
  case parent => exact hparent
  case smaller =>
    intro q hq
    refine lt_of_addresses_lt ((hparent q).1 hq) ha (dropLast_lt fun hnil => ?_)
    rw [hnil] at hposition
    cases hposition
  case around =>
    intro other
    constructor
    · exact fun h => h.unique hup
    · rintro rfl
      exact hup
  case chain => rw [hchain, Entry.chain, henclosing]
  case enclosing => exact henclosing
  case position => exact ⟨_, hposition, hd⟩
  case document => exact hd
  case sameDocument =>
    intro x hx
    rw [documentOf?, hdocuments x hx]
    exact hd

/-- The second type inside a class of the second document. -/
theorem index_lists_nestedUnions :
    addresses [emptyNameSpace, nestedUnions] =
        [[0, 0], [1, 0], [1, 0, 0], [1, 0, 0, 0], [1, 0, 1], [1, 0, 1, 0]] ∧
      ∃ e outer, ListedAt [emptyNameSpace, nestedUnions] 4 [1, 0, 1] e nestedUnions outer ∧
        e.parent = some 1 ∧ outer.map (·.2.decl) = [outerClass] := by
  obtain ⟨-, -, -, hlisted⟩ := index_lists_declarations [emptyNameSpace, nestedUnions]
  obtain ⟨e, d, outer, h⟩ := hlisted 4 [1, 0, 1] rfl
  obtain rfl := Option.some.inj h.entry
  obtain rfl := Option.some.inj h.document
  exact ⟨rfl, _, outer, h, rfl, h.enclosing.symm⟩

end Compilation
end CaseUnion
