import CaseUnion.Path

/-!
# Components of joined paths

The components of a joined path are those of its two halves (`steps_join`), if the second half
begins with a name.
-/

namespace CaseUnion.Path

theorem parts_eq_splitOn (cs : List Char) : parts cs = cs.splitOn '/' := by
  induction cs with
  | nil => rfl
  | cons c rest ih =>
    rw [parts, List.splitOn_cons_eq_if_modifyHead]
    by_cases hc : c = '/'
    · simp [hc, ih]
    · simp only [hc, if_false, beq_iff_eq]
      cases hparts : parts rest with
      | nil =>
        rw [ih] at hparts
        exact absurd hparts (List.splitOn_ne_nil _ _)
      | cons first others =>
        rw [← ih, hparts]
        rfl

theorem parts_append_slash (a b : List Char) : parts (a ++ '/' :: b) = parts a ++ parts b := by
  rw [parts_eq_splitOn, parts_eq_splitOn, parts_eq_splitOn, List.splitOn_append_cons_self]

theorem parts_ne_nil (cs : List Char) : parts cs ≠ [] := by
  rw [parts_eq_splitOn]
  exact List.splitOn_ne_nil _ _

theorem parts_append {a b first : List Char} {others : List (List Char)} (ha : '/' ∉ a)
    (hb : parts b = first :: others) : parts (a ++ b) = (a ++ first) :: others := by
  induction a with
  | nil => exact hb
  | cons c rest ih =>
    have hc : c ≠ '/' := fun heq => ha (heq ▸ List.mem_cons_self)
    have hrest := ih fun hmem => ha (List.mem_cons_of_mem c hmem)
    rw [List.cons_append, parts, if_neg hc, hrest]
    rfl

/-- The components of a path that begins with neither a separator nor a dot. -/
def inner (cs : List Char) : List Step := (parts cs).filterMap innerStep?

/-- The component that only the beginning of a path can add. -/
def front (cs : List Char) : List Step :=
  if cs.head? = some '/' then [.root]
  else if (parts cs).head? = some ['.'] then [.here]
  else []

theorem steps_eq (path : String) : steps path = front path.toList ++ inner path.toList := by
  rw [steps, front]
  split
  · rfl
  · split <;> rfl

theorem inner_append_slash (a b : List Char) : inner (a ++ '/' :: b) = inner a ++ inner b := by
  rw [inner, parts_append_slash, List.filterMap_append]
  rfl

theorem head?_append_left {α : Type} {a : List α} (ha : a ≠ []) (b : List α) :
    (a ++ b).head? = a.head? := by
  cases a with
  | nil => exact absurd rfl ha
  | cons x a => rfl

theorem front_append_slash {a : List Char} (ha : a ≠ []) (b : List Char) :
    front (a ++ '/' :: b) = front a := by
  have hparts : (parts (a ++ '/' :: b)).head? = (parts a).head? := by
    rw [parts_append_slash]
    exact head?_append_left (parts_ne_nil a) _
  rw [front, front, hparts, head?_append_left ha]

theorem front_eq_nil {c : Char} {rest : List Char} (hdot : c ≠ '.') (hslash : c ≠ '/') :
    front (c :: rest) = [] := by
  have hfirst : (parts (c :: rest)).head? ≠ some ['.'] := by
    rw [parts, if_neg hslash]
    cases parts rest with
    | nil => simpa using hdot
    | cons first others => simp [hdot]
  rw [front, if_neg (by simpa using hslash), if_neg hfirst]

theorem steps_join {base path : String} {c : Char} {rest : List Char}
    (hpath : path.toList = c :: rest) (hdot : c ≠ '.') (hslash : c ≠ '/') :
    steps (join base path) = steps base ++ inner path.toList := by
  have habsolute : isAbsolute path = false := by simp [isAbsolute, hpath, hslash]
  have hfront : front path.toList = [] := by
    rw [hpath]
    exact front_eq_nil hdot hslash
  rw [join, habsolute, if_neg Bool.false_ne_true]
  by_cases hempty : base.isEmpty
  · rw [if_pos (by simp [hempty]), String.isEmpty_iff.1 hempty, String.empty_append, steps_eq path,
      hfront]
    rfl
  · by_cases hlast : base.toList.getLast? = some '/'
    · obtain ⟨a, ha⟩ := List.getLast?_eq_some_iff.1 hlast
      have hjoined : (base ++ path).toList = a ++ '/' :: path.toList := by
        rw [String.toList_append, ha, List.append_assoc]
        rfl
      have hbase : inner base.toList = inner a := by
        rw [ha, inner_append_slash]
        simp [inner, parts, innerStep?]
      have hsame : front (a ++ '/' :: path.toList) = front base.toList := by
        by_cases hnil : a = []
        · rw [ha, hnil]
          rfl
        · rw [ha, front_append_slash hnil, front_append_slash hnil]
      rw [if_pos (by simp [hlast]), steps_eq, steps_eq, hjoined, inner_append_slash, hsame, hbase,
        List.append_assoc]
    · have hne : base.toList ≠ [] := fun hnil =>
        hempty (String.isEmpty_iff.2 (String.toList_eq_nil_iff.1 hnil))
      have hjoined : (base ++ "/" ++ path).toList = base.toList ++ '/' :: path.toList := by
        rw [String.toList_append, String.toList_append, List.append_assoc]
        rfl
      rw [if_neg (by simp [hempty, hlast]), steps_eq, steps_eq, hjoined, inner_append_slash,
        front_append_slash hne, List.append_assoc]

/-- The first component of a file name takes up its stem. -/
theorem inner_append {stem suffix first : List Char} {others : List (List Char)}
    (hslash : '/' ∉ stem) (hstem : ∃ c rest, stem = c :: rest ∧ c ≠ '.')
    (hsuffix : parts suffix = first :: others) :
    inner (stem ++ suffix) =
      .name (String.ofList (stem ++ first)) :: others.filterMap innerStep? := by
  obtain ⟨c, rest, rfl, hc⟩ := hstem
  have hname : innerStep? (c :: rest ++ first) = some (.name (String.ofList (c :: rest ++ first))) := by
    simp [innerStep?, hc]
  rw [inner, parts_append hslash hsuffix, List.filterMap_cons_some hname]

end CaseUnion.Path
