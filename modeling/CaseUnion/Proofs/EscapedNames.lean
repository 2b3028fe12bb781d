import CaseUnion.Descriptor
import CaseUnion.TypeRef.Token

/-!
# Escaped names

The stem of a file name is a qualified name with the blanks left out and underscores in place of the
marks around type parameters. Where names are host identifiers, its parts between dots are the parts
of the namespace and the escaped names of the declarations, outermost first (`splitOn_fileStem`), so
two stems are equal exactly if these are (`fileStem_eq_iff`).

Escaping confuses a name that ends in an underscore with a name and its type parameters. Names
without such underscores give back the component of the index key (`keyPart_escapedName`).
-/

namespace CaseUnion

/-- Letters, digits and underscores, and no digit in front. -/
def Text.IsIdentifier : List Char → Prop
  | [] => False
  | first :: rest => (first = '_' ∨ isAlphabetic first) ∧ ∀ c ∈ rest, isNamePart c

instance : DecidablePred Text.IsIdentifier
  | [] => inferInstanceAs (Decidable False)
  | first :: rest => decidable_of_iff
      ((first = '_' ∨ Text.isAlphabetic first) ∧ rest.all isNamePart)
      (and_congr_right' List.all_eq_true)

/-- Identifiers with dots between them. -/
def Text.IsDotted (cs : List Char) : Prop := ∀ part ∈ cs.splitOn '.', IsIdentifier part

instance (cs : List Char) : Decidable (Text.IsDotted cs) :=
  inferInstanceAs (Decidable (∀ part ∈ cs.splitOn '.', Text.IsIdentifier part))

theorem toDigits_injective : Function.Injective (Nat.toDigits 10) :=
  Function.LeftInverse.injective fun _ => Nat.ofDigitChars_ten_toDigits

theorem eq_or_exists_of_mem_intercalate {α : Type} {sep x : α} {parts : List (List α)}
    (h : x ∈ [sep].intercalate parts) : x = sep ∨ ∃ part ∈ parts, x ∈ part := by
  induction parts with
  | nil => cases h
  | cons part rest ih =>
    cases rest with
    | nil => exact Or.inr ⟨part, List.mem_cons_self, by simpa using h⟩
    | cons next rest =>
      simp only [List.intercalate_cons_cons, List.mem_append, List.mem_singleton] at h
      rcases h with (hpart | heq) | hrest
      · exact Or.inr ⟨part, List.mem_cons_self, hpart⟩
      · exact Or.inl heq
      · rcases ih hrest with heq | ⟨other, hother, hx⟩
        · exact Or.inl heq
        · exact Or.inr ⟨other, List.mem_cons_of_mem _ hother, hx⟩

/-- The names that a declaration introduces are host identifiers. -/
structure TypeHeader.HasIdentifiers (d : TypeHeader) : Prop where
  name : Text.IsIdentifier d.name.toList
  typeParameters : ∀ p ∈ d.typeParameters, Text.IsIdentifier p.toList

instance (d : TypeHeader) : Decidable d.HasIdentifiers :=
  decidable_of_iff (Text.IsIdentifier d.name.toList ∧
      ∀ p ∈ d.typeParameters, Text.IsIdentifier p.toList)
    ⟨fun h => ⟨h.1, h.2⟩, fun h => ⟨h.name, h.typeParameters⟩⟩

namespace Text

variable {cs : List Char} {c : Char}

theorem IsIdentifier.isNamePart (h : IsIdentifier cs) (hc : c ∈ cs) : isNamePart c := by
  cases cs with
  | nil => cases hc
  | cons first rest =>
    obtain ⟨hfirst, hrest⟩ := h
    rcases List.mem_cons.1 hc with rfl | hc
    · rcases hfirst with rfl | hfirst
      · rfl
      · simp [CaseUnion.isNamePart, hfirst]
    · exact hrest c hc

theorem IsIdentifier.ne_nil (h : IsIdentifier cs) : cs ≠ [] := by
  rintro rfl
  exact h

end Text

theorem isNamePart_dot : isNamePart '.' = false := by decide +kernel

theorem isNamePart_slash : isNamePart '/' = false := by decide +kernel

namespace Descriptor

theorem stemChar_of_isNamePart {c : Char} (h : isNamePart c) : stemChar c = some c := by
  have hblank : isNamePart ' ' = false := by decide +kernel
  have hless : isNamePart '<' = false := by decide +kernel
  have hgreater : isNamePart '>' = false := by decide +kernel
  have hcomma : isNamePart ',' = false := by decide +kernel
  unfold stemChar
  split <;> simp_all

/-- Characters as they appear in the stem of a file name. -/
def escape (cs : List Char) : List Char := cs.filterMap stemChar

theorem escape_append (a b : List Char) : escape (a ++ b) = escape a ++ escape b :=
  List.filterMap_append

theorem escape_cons_dot (cs : List Char) : escape ('.' :: cs) = '.' :: escape cs := rfl

theorem escape_eq_self {cs : List Char} (h : ∀ c ∈ cs, isNamePart c ∨ c = '.') : escape cs = cs := by
  induction cs with
  | nil => rfl
  | cons c cs ih =>
    have hc : stemChar c = some c := by
      rcases h c List.mem_cons_self with hname | rfl
      · exact stemChar_of_isNamePart hname
      · rfl
    rw [escape, List.filterMap_cons_some hc]
    exact congrArg (c :: ·) (ih fun b hb => h b (List.mem_cons_of_mem c hb))

theorem escape_of_isIdentifier {cs : List Char} (h : Text.IsIdentifier cs) : escape cs = cs :=
  escape_eq_self fun _ hc => Or.inl (h.isNamePart hc)

/-- A name with its type parameters as one part of a stem. -/
def escapedName (name : String) (typeParameters : List String) : List Char :=
  if typeParameters.isEmpty then name.toList
  else name.toList ++ '_' :: (['_'].intercalate (typeParameters.map String.toList) ++ ['_'])

theorem escape_intercalate {names : List String}
    (h : ∀ name ∈ names, Text.IsIdentifier name.toList) :
    escape ([',', ' '].intercalate (names.map String.toList)) =
      ['_'].intercalate (names.map String.toList) := by
  induction names with
  | nil => rfl
  | cons name rest ih =>
    have hname := escape_of_isIdentifier (h name List.mem_cons_self)
    have hrest := ih fun other hother => h other (List.mem_cons_of_mem _ hother)
    cases rest with
    | nil => simpa using hname
    | cons next rest =>
      simp only [List.map_cons, List.intercalate_cons_cons, escape_append] at hrest ⊢
      rw [hname, hrest]
      rfl

theorem escape_generic {name : String} {typeParameters : List String}
    (hname : Text.IsIdentifier name.toList)
    (hparameters : ∀ p ∈ typeParameters, Text.IsIdentifier p.toList) :
    escape (generic name typeParameters).toList = escapedName name typeParameters := by
  rw [generic, escapedName]
  split
  · exact escape_of_isIdentifier hname
  · simp only [String.toList_append, String.toList_intercalate, escape_append, List.append_assoc]
    rw [escape_of_isIdentifier hname,
      show (", " : String).toList = [',', ' '] from rfl, escape_intercalate hparameters]
    rfl

theorem isNamePart_of_mem_escapedName {name : String} {typeParameters : List String}
    (hname : Text.IsIdentifier name.toList)
    (hparameters : ∀ p ∈ typeParameters, Text.IsIdentifier p.toList) {c : Char}
    (hc : c ∈ escapedName name typeParameters) : isNamePart c := by
  have hunderscore : isNamePart '_' := rfl
  rw [escapedName] at hc
  split at hc
  · exact hname.isNamePart hc
  · rcases List.mem_append.1 hc with hc | hc
    · exact hname.isNamePart hc
    · rcases List.mem_cons.1 hc with rfl | hc
      · exact hunderscore
      · rcases List.mem_append.1 hc with hc | hc
        · rcases eq_or_exists_of_mem_intercalate hc with rfl | ⟨part, hpart, hc⟩
          · exact hunderscore
          · obtain ⟨p, hp, rfl⟩ := List.mem_map.1 hpart
            exact (hparameters p hp).isNamePart hc
        · rw [List.mem_singleton.1 hc]
          exact hunderscore

theorem dot_not_mem_escapedName {name : String} {typeParameters : List String}
    (hname : Text.IsIdentifier name.toList)
    (hparameters : ∀ p ∈ typeParameters, Text.IsIdentifier p.toList) :
    '.' ∉ escapedName name typeParameters := by
  intro hmem
  have hdot := isNamePart_of_mem_escapedName hname hparameters hmem
  rw [isNamePart_dot] at hdot
  cases hdot

theorem escapedName_ne_nil {name : String} (hname : Text.IsIdentifier name.toList)
    (typeParameters : List String) : escapedName name typeParameters ≠ [] := by
  rw [escapedName]
  split
  · exact hname.ne_nil
  · simp

def nameSpaceParts : Option String → List (List Char)
  | none => []
  | some nameSpace => nameSpace.toList.splitOn '.'

/-- The parts of the namespace and the escaped names of the types around a type and its own. -/
def escapedPath (d : Descriptor) : List (List Char) :=
  nameSpaceParts d.nameSpace ++ (d.parents ++ [d]).map fun p => escapedName p.name p.typeParameters

/-- The parts of the stem of a qualified name. -/
def stemParts : Option String → List (List Char)
  | none => []
  | some qualified => (escape qualified.toList).splitOn '.'

theorem stemParts_nameSpace {nameSpace : Option String}
    (h : ∀ n ∈ nameSpace, Text.IsDotted n.toList) : stemParts nameSpace = nameSpaceParts nameSpace := by
  cases nameSpace with
  | none => rfl
  | some n =>
    have hparts := h n rfl
    have hescape : escape n.toList = n.toList := by
      apply escape_eq_self
      intro c hc
      have hjoined : ['.'].intercalate (n.toList.splitOn '.') = n.toList :=
        List.intercalate_splitOn '.'
      rw [← hjoined] at hc
      rcases eq_or_exists_of_mem_intercalate hc with heq | ⟨part, hpart, hmem⟩
      · exact Or.inr heq
      · exact Or.inl ((hparts part hpart).isNamePart hmem)
    rw [stemParts, nameSpaceParts, hescape]

theorem stemParts_ofHeader {d : TypeHeader} (hd : d.HasIdentifiers) (nameSpace : Option String)
    (parents : List Descriptor) :
    stemParts (some (ofHeader d nameSpace parents).qualified) =
      stemParts ((parents.getLast?.map (·.qualified)).or nameSpace) ++
        [escapedName d.name d.typeParameters] := by
  have hescape := escape_generic hd.name hd.typeParameters
  have hdot := dot_not_mem_escapedName hd.name hd.typeParameters
  simp only [ofHeader]
  cases (parents.getLast?.map (·.qualified)).or nameSpace with
  | none => rw [stemParts, stemParts, hescape, List.splitOn_eq_singleton hdot, List.nil_append]
  | some outer =>
    have hqualified : (s!"{outer}.{generic d.name d.typeParameters}").toList =
        outer.toList ++ '.' :: (generic d.name d.typeParameters).toList := by
      simp [toString]
    simp only [stemParts]
    rw [hqualified, escape_append, escape_cons_dot, List.splitOn_append_cons_self, hescape,
      List.splitOn_eq_singleton hdot]

theorem stemParts_chain (nameSpace : Option String) {decls : List TypeDecl}
    (h : ∀ t ∈ decls, t.header.HasIdentifiers) (parents : List Descriptor) :
    stemParts (((chain nameSpace parents decls).getLast?.map (·.qualified)).or nameSpace) =
      stemParts ((parents.getLast?.map (·.qualified)).or nameSpace) ++
        decls.map fun t => escapedName t.name t.typeParameters := by
  induction decls generalizing parents with
  | nil => simp [chain]
  | cons t rest ih =>
    rw [chain, ih fun other hother => h other (List.mem_cons_of_mem t hother)]
    have hlast : (parents ++ [ofHeader t.header nameSpace parents]).getLast?.map (·.qualified) =
        some (ofHeader t.header nameSpace parents).qualified := by
      simp
    rw [hlast, Option.some_or, stemParts_ofHeader (h t List.mem_cons_self), List.append_assoc]
    rfl

theorem map_chain (nameSpace : Option String) (decls : List TypeDecl) (parents : List Descriptor) :
    (chain nameSpace parents decls).map (fun p => escapedName p.name p.typeParameters) =
      parents.map (fun p => escapedName p.name p.typeParameters) ++
        decls.map fun t => escapedName t.name t.typeParameters := by
  induction decls generalizing parents with
  | nil => simp [chain]
  | cons t rest ih =>
    rw [chain, ih, List.map_append, List.append_assoc]
    rfl

theorem escapedPath_ofEntry (e : Entry) (nameSpace : Option String) :
    (ofEntry e nameSpace).escapedPath = nameSpaceParts nameSpace ++
      (e.enclosing ++ [e.decl]).map fun t => escapedName t.name t.typeParameters := by
  have hchain := map_chain nameSpace e.enclosing []
  rw [escapedPath, List.map_append, List.map_append]
  simp only [ofEntry, ofHeader] at hchain ⊢
  rw [hchain]
  rfl

theorem splitOn_fileStem {e : Entry} {nameSpace : Option String}
    (hnameSpace : ∀ n ∈ nameSpace, Text.IsDotted n.toList)
    (h : ∀ t ∈ e.enclosing ++ [e.decl], t.header.HasIdentifiers) :
    (ofEntry e nameSpace).fileStem.toList.splitOn '.' = (ofEntry e nameSpace).escapedPath := by
  have henclosing := stemParts_chain nameSpace (fun t ht => h t (List.mem_append_left _ ht)) []
  have hdecl := h e.decl (List.mem_append_right _ List.mem_cons_self)
  have hstem : (ofEntry e nameSpace).fileStem.toList.splitOn '.' =
      stemParts (some (ofEntry e nameSpace).qualified) := by
    rw [fileStem, String.toList_ofList]
    rfl
  have hnone : (([] : List Descriptor).getLast?.map (·.qualified)).or nameSpace = nameSpace := rfl
  rw [hstem, escapedPath_ofEntry, ofEntry, stemParts_ofHeader hdecl, henclosing, hnone,
    stemParts_nameSpace hnameSpace, List.map_append, List.append_assoc]
  rfl

theorem of_mem_escapedPath {e : Entry} {nameSpace : Option String}
    (hnameSpace : ∀ n ∈ nameSpace, Text.IsDotted n.toList)
    (h : ∀ t ∈ e.enclosing ++ [e.decl], t.header.HasIdentifiers) {part : List Char}
    (hpart : part ∈ (ofEntry e nameSpace).escapedPath) :
    part ≠ [] ∧ ∀ c ∈ part, isNamePart c := by
  rw [escapedPath_ofEntry] at hpart
  rcases List.mem_append.1 hpart with hpart | hpart
  · cases nameSpace with
    | none => cases hpart
    | some n =>
      have hidentifier := hnameSpace n rfl part hpart
      exact ⟨hidentifier.ne_nil, fun c hc => hidentifier.isNamePart hc⟩
  · obtain ⟨t, ht, rfl⟩ := List.mem_map.1 hpart
    exact ⟨escapedName_ne_nil (h t ht).name _,
      fun c hc => isNamePart_of_mem_escapedName (h t ht).name (h t ht).typeParameters hc⟩

/-- A stem is one component of a path, and neither the directory itself nor the one around it. -/
theorem fileStem_isName {e : Entry} {nameSpace : Option String}
    (hnameSpace : ∀ n ∈ nameSpace, Text.IsDotted n.toList)
    (h : ∀ t ∈ e.enclosing ++ [e.decl], t.header.HasIdentifiers) :
    '/' ∉ (ofEntry e nameSpace).fileStem.toList ∧
      ∃ first rest, (ofEntry e nameSpace).fileStem.toList = first :: rest ∧ first ≠ '.' := by
  have hparts := splitOn_fileStem hnameSpace h
  constructor
  · intro hmem
    have hjoined : ['.'].intercalate ((ofEntry e nameSpace).fileStem.toList.splitOn '.') =
        (ofEntry e nameSpace).fileStem.toList := List.intercalate_splitOn '.'
    rw [← hjoined, hparts] at hmem
    rcases eq_or_exists_of_mem_intercalate hmem with heq | ⟨part, hpart, hslash⟩
    · cases heq
    · have hname := (of_mem_escapedPath hnameSpace h hpart).2 '/' hslash
      rw [isNamePart_slash] at hname
      cases hname
  · cases hstem : (ofEntry e nameSpace).fileStem.toList with
    | nil =>
      have hpart : [] ∈ (ofEntry e nameSpace).escapedPath := by
        rw [← hparts, hstem]
        exact List.mem_cons_self
      exact absurd rfl (of_mem_escapedPath hnameSpace h hpart).1
    | cons first rest =>
      refine ⟨first, rest, rfl, ?_⟩
      rintro rfl
      have hpart : [] ∈ (ofEntry e nameSpace).escapedPath := by
        rw [← hparts, hstem, List.splitOn_cons_eq_if_modifyHead]
        exact List.mem_cons_self
      exact absurd rfl (of_mem_escapedPath hnameSpace h hpart).1

theorem fileStem_eq_iff {e f : Entry} {m n : Option String}
    (hm : ∀ x ∈ m, Text.IsDotted x.toList) (hn : ∀ x ∈ n, Text.IsDotted x.toList)
    (he : ∀ t ∈ e.enclosing ++ [e.decl], t.header.HasIdentifiers)
    (hf : ∀ t ∈ f.enclosing ++ [f.decl], t.header.HasIdentifiers) :
    (ofEntry e m).fileStem = (ofEntry f n).fileStem ↔
      (ofEntry e m).escapedPath = (ofEntry f n).escapedPath := by
  rw [← splitOn_fileStem hm he, ← splitOn_fileStem hn hf]
  constructor
  · intro h
    rw [h]
  · intro h
    have hjoined := congrArg ['.'].intercalate h
    rw [List.intercalate_splitOn, List.intercalate_splitOn] at hjoined
    exact String.toList_inj.1 hjoined

end Descriptor

/-- The underscores of the names are not confused with those that stand for the marks around type
parameters. -/
structure TypeHeader.IsPlain (d : TypeHeader) : Prop where
  plain : d.typeParameters = [] → d.name.toList.getLast? ≠ some '_'
  generic : d.typeParameters ≠ [] → '_' ∉ d.name.toList ∧ ∀ p ∈ d.typeParameters, '_' ∉ p.toList

instance (d : TypeHeader) : Decidable d.IsPlain :=
  decidable_of_iff ((d.typeParameters = [] → d.name.toList.getLast? ≠ some '_') ∧
      (d.typeParameters ≠ [] → '_' ∉ d.name.toList ∧ ∀ p ∈ d.typeParameters, '_' ∉ p.toList))
    ⟨fun h => ⟨h.1, h.2⟩, fun h => ⟨h.plain, h.generic⟩⟩

namespace Descriptor

/-- The component of an index key that an escaped name without confusion stands for. -/
def keyPart (part : List Char) : List Char :=
  if part.getLast? = some '_' then
    part.takeWhile (· ≠ '_') ++ '`' :: (toString (part.count '_' - 1)).toList
  else part

theorem count_intercalate {names : List String} (h : ∀ name ∈ names, '_' ∉ name.toList) :
    (['_'].intercalate (names.map String.toList)).count '_' = names.length - 1 := by
  induction names with
  | nil => rfl
  | cons name rest ih =>
    have hname : name.toList.count '_' = 0 := List.count_eq_zero.2 (h name List.mem_cons_self)
    have hrest := ih fun other hother => h other (List.mem_cons_of_mem _ hother)
    cases rest with
    | nil => simpa using hname
    | cons next rest =>
      simp only [List.map_cons, List.intercalate_cons_cons, List.count_append, hname] at hrest ⊢
      rw [hrest]
      simp only [List.count_singleton_self, List.length_cons]
      omega

theorem keyPart_escapedName {d : TypeHeader} (h : d.IsPlain) :
    keyPart (escapedName d.name d.typeParameters) =
      (TypeRef.keyComponent d.name d.typeParameters.length).toList := by
  by_cases hnil : d.typeParameters = []
  · have hlast := h.plain hnil
    simp [escapedName, hnil, keyPart, hlast, TypeRef.keyComponent]
  · obtain ⟨hname, hparameters⟩ := h.generic hnil
    have hlength : d.typeParameters.length ≠ 0 := fun hzero => hnil (List.length_eq_zero_iff.1 hzero)
    have hempty : d.typeParameters.isEmpty = false := by simpa using hnil
    have hescaped : escapedName d.name d.typeParameters =
        d.name.toList ++
          '_' :: (['_'].intercalate (d.typeParameters.map String.toList) ++ ['_']) := by
      rw [escapedName, hempty]
      rfl
    have hlast : (escapedName d.name d.typeParameters).getLast? = some '_' := by
      rw [hescaped]
      simp [List.getLast?_append, List.getLast?_cons]
    have hbefore : (escapedName d.name d.typeParameters).takeWhile (· ≠ '_') = d.name.toList := by
      have hnot : ∀ c ∈ d.name.toList, decide (c ≠ '_') := by
        intro c hc
        have hne : c ≠ '_' := by
          rintro rfl
          exact hname hc
        simpa using hne
      rw [hescaped, List.takeWhile_append_of_pos hnot, List.takeWhile_cons_of_neg (by simp),
        List.append_nil]
    have hcount : (escapedName d.name d.typeParameters).count '_' - 1 = d.typeParameters.length := by
      have hzero : d.name.toList.count '_' = 0 := List.count_eq_zero.2 hname
      rw [hescaped, List.count_append, List.count_cons_self, List.count_append,
        count_intercalate hparameters, hzero]
      simp only [List.count_singleton_self]
      omega
    rw [keyPart, if_pos hlast, hbefore, hcount, TypeRef.keyComponent, if_neg hlength]
    simp [toString]

end Descriptor
end CaseUnion
