import CaseUnion.Generation

/-!
# Units written to files

A file that can be written stands in an existing directory and is none itself, so writing it changes
no directory (`hasDirectory_of_write`). Hence no path leads to another place than before
(`resolve?_of_write`), a place holds the unit that was written there last
(`textAt?_of_writeAll_last`), and of units with different places each one is found again after all
are written (`textAt?_of_writeAll`).
-/

namespace CaseUnion

namespace FileTree

variable {t t' : FileTree} {p q : Place} {names : List String}

theorem hasDirectory_iff :
    t.hasDirectory names ↔ names = [] ∨ ∃ known content, (known, content) ∈ t.entries ∧
      names <+: known ∧ (names.length < known.length ∨ content = none) := by
  simp [hasDirectory]

theorem hasDirectory_of_append {more : List String} (h : t.hasDirectory (names ++ more)) :
    t.hasDirectory names := by
  rw [hasDirectory_iff] at h ⊢
  rcases h with hnil | ⟨known, content, hmem, hprefix, hbelow⟩
  · exact Or.inl (List.append_eq_nil_iff.1 hnil).1
  · refine Or.inr ⟨known, content, hmem, (List.prefix_append names more).trans hprefix, ?_⟩
    rcases hbelow with hlt | hnone
    · rw [List.length_append] at hlt
      exact Or.inl (by omega)
    · exact Or.inr hnone

/-- A place above the working directory has no names. -/
def Place.IsProper (p : Place) : Prop := 0 < p.above → p.names = []

theorem placeIsDirectory_iff : t.placeIsDirectory p ↔ 0 < p.above ∨ t.hasDirectory p.names := by
  simp [placeIsDirectory]

/-- The place that one component leads to from a directory. -/
def next? (p : Place) : Path.Step → Option Place
  | .name name => if p.above > 0 then none else some ⟨0, p.names ++ [name]⟩
  | .up => some (if p.names.isEmpty then ⟨p.above + 1, []⟩ else ⟨0, p.names.dropLast⟩)
  | .here => some p
  | .root => none

theorem follow?_cons (p : Place) (step : Path.Step) (rest : List Path.Step) :
    t.follow? p (step :: rest) =
      if t.placeIsDirectory p then (next? p step).bind (t.follow? · rest) else none := by
  cases step with
  | name name =>
    rw [follow?, next?]
    by_cases habove : p.above > 0
    · rw [if_pos habove, if_pos habove, Option.bind_none]
    · rw [if_neg habove, if_neg habove, Option.bind_some]
  | up =>
    rw [follow?, next?, Option.bind_some]
    by_cases hempty : p.names.isEmpty
    · rw [if_pos hempty, if_pos hempty]
    · rw [if_neg hempty, if_neg hempty]
  | here => rw [follow?, next?, Option.bind_some]
  | root => rw [follow?, next?, Option.bind_none]

theorem isProper_of_next? {step : Path.Step} (hp : p.IsProper) (h : next? p step = some q) :
    q.IsProper := by
  intro habove
  cases step with
  | name name =>
    rw [next?] at h
    split at h
    · cases h
    · cases h
      exact absurd habove (Nat.lt_irrefl 0)
  | up =>
    rw [next?] at h
    split at h
    · cases h
      rfl
    · cases h
      exact absurd habove (Nat.lt_irrefl 0)
  | here =>
    cases h
    exact hp habove
  | root => cases h

/-- A name leads into the directory, and all other components lead to directories. -/
theorem exists_parent_of_next? {step : Path.Step} (hp : p.IsProper) (hdirectory : t.placeIsDirectory p)
    (h : next? p step = some q) (hq : ¬ t.placeIsDirectory q) :
    ∃ parent name, q = ⟨0, parent ++ [name]⟩ ∧ t.hasDirectory parent := by
  rw [placeIsDirectory_iff] at hdirectory hq
  cases step with
  | name name =>
    rw [next?] at h
    split at h
    · cases h
    · rename_i habove
      cases h
      exact ⟨p.names, name, rfl, hdirectory.resolve_left habove⟩
  | up =>
    rw [next?] at h
    split at h
    · cases h
      exact absurd (Or.inl (Nat.succ_pos _)) hq
    · rename_i hnames
      cases h
      have hne : p.names ≠ [] := by simpa using hnames
      have hself : t.hasDirectory p.names := hdirectory.resolve_left fun habove => hne (hp habove)
      rw [← List.dropLast_concat_getLast hne] at hself
      exact absurd (Or.inr (hasDirectory_of_append hself)) hq
  | here =>
    cases h
    exact absurd hdirectory hq
  | root => cases h

theorem follow?_append (p : Place) (a b : List Path.Step) :
    t.follow? p (a ++ b) = (t.follow? p a).bind (t.follow? · b) := by
  induction a generalizing p with
  | nil => rfl
  | cons step rest ih =>
    rw [List.cons_append, follow?_cons, follow?_cons]
    by_cases hp : t.placeIsDirectory p
    · rw [if_pos hp, if_pos hp, Option.bind_assoc]
      congr 1
      funext q
      exact ih q
    · rw [if_neg hp, if_neg hp, Option.bind_none]

/-- What is reached and is no directory stands in one. -/
theorem exists_parent_of_follow? {steps : List Path.Step} (hp : p.IsProper)
    (h : t.follow? p steps = some q) (hq : ¬ t.placeIsDirectory q) :
    q = p ∨ ∃ parent name, q = ⟨0, parent ++ [name]⟩ ∧ t.hasDirectory parent := by
  induction steps generalizing p with
  | nil =>
    cases h
    exact Or.inl rfl
  | cons step rest ih =>
    rw [follow?_cons] at h
    split at h
    · rename_i hdirectory
      obtain ⟨r, hr, hrest⟩ := Option.bind_eq_some_iff.1 h
      rcases ih (isProper_of_next? hp hr) hrest with rfl | hparent
      · exact Or.inr (exists_parent_of_next? hp hdirectory hr hq)
      · exact Or.inr hparent
    · cases h

theorem follow?_of_resolve? {path : String} (h : t.resolve? path = some p) :
    t.follow? {} (Path.steps path) = some p := by
  rw [resolve?] at h
  split at h
  · cases h
  · split at h
    · rename_i q hq
      split at h
      · cases h
      · cases h
        exact hq
    · cases h

/-- A file that was written stands in a directory and is none. -/
theorem write_eq_ok_iff {path content : String} :
    t.write path content = .ok t' ↔
      ∃ parent name, t.resolve? path = some ⟨0, parent ++ [name]⟩ ∧ t.hasDirectory parent ∧
        ¬ t.hasDirectory (parent ++ [name]) ∧ t' = t.put (parent ++ [name]) (some content) := by
  rw [write]
  cases hresolve : t.resolve? path with
  | none => simp
  | some p =>
    constructor
    · intro h
      simp only at h
      split at h
      · cases h
      · rename_i hnot
        cases h
        have hroot : ({} : Place).IsProper := fun _ => rfl
        rcases exists_parent_of_follow? hroot (follow?_of_resolve? hresolve) hnot with
          rfl | ⟨parent, name, rfl, hparent⟩
        · exact absurd rfl hnot
        · exact ⟨parent, name, rfl, hparent,
            fun hself => hnot (placeIsDirectory_iff.2 (Or.inr hself)), rfl⟩
    · rintro ⟨parent, name, hplace, _, hnot, rfl⟩
      cases hplace
      have hfile : ¬ t.placeIsDirectory ⟨0, parent ++ [name]⟩ := by
        rw [placeIsDirectory_iff]
        simpa using hnot
      simp only
      rw [if_neg hfile]

theorem hasDirectory_put {parent : List String} {name content : String}
    (hparent : t.hasDirectory parent) (hfile : ¬ t.hasDirectory (parent ++ [name]))
    (names : List String) :
    (t.put (parent ++ [name]) (some content)).hasDirectory names = t.hasDirectory names := by
  rw [Bool.eq_iff_iff]
  constructor
  · intro h
    rcases hasDirectory_iff.1 h with hnil | ⟨known, old, hmem, hprefix, hbelow⟩
    · exact hasDirectory_iff.2 (Or.inl hnil)
    · rcases List.mem_append.1 hmem with hmem | hmem
      · exact hasDirectory_iff.2
          (Or.inr ⟨known, old, (List.mem_filter.1 hmem).1, hprefix, hbelow⟩)
      · -- the file itself makes no directory but those that it stands in
        cases List.mem_singleton.1 hmem
        have hlt : names.length < (parent ++ [name]).length := hbelow.resolve_right nofun
        rcases List.prefix_concat_iff.1 hprefix with heq | hparents
        · rw [heq] at hlt
          exact absurd hlt (Nat.lt_irrefl _)
        · obtain ⟨more, hmore⟩ := hparents
          rw [← hmore] at hparent
          exact hasDirectory_of_append hparent
  · intro h
    rcases hasDirectory_iff.1 h with hnil | ⟨known, old, hmem, hprefix, hbelow⟩
    · exact hasDirectory_iff.2 (Or.inl hnil)
    · by_cases hknown : known = parent ++ [name]
      · subst hknown
        have hnotNone : old ≠ none := fun hnone =>
          hfile (hasDirectory_iff.2 (Or.inr ⟨_, old, hmem, List.prefix_rfl, Or.inr hnone⟩))
        refine hasDirectory_iff.2 (Or.inr ⟨parent ++ [name], some content, ?_, hprefix, ?_⟩)
        · exact List.mem_append_right _ List.mem_cons_self
        · exact Or.inl (hbelow.resolve_right hnotNone)
      · refine hasDirectory_iff.2 (Or.inr ⟨known, old, ?_, hprefix, hbelow⟩)
        exact List.mem_append_left _ (List.mem_filter.2 ⟨hmem, by simpa using hknown⟩)

theorem hasDirectory_of_write {path content : String} (h : t.write path content = .ok t') :
    t'.hasDirectory = t.hasDirectory := by
  obtain ⟨parent, name, _, hparent, hfile, rfl⟩ := write_eq_ok_iff.1 h
  funext names
  exact hasDirectory_put hparent hfile names

/-- Where a path leads depends on the directories alone. -/
theorem resolve?_congr (h : t'.hasDirectory = t.hasDirectory) (path : String) :
    t'.resolve? path = t.resolve? path := by
  have hplace : t'.placeIsDirectory = t.placeIsDirectory := by
    funext p
    rw [placeIsDirectory, placeIsDirectory, h]
  have hfollow : ∀ (steps : List Path.Step) (p : Place), t'.follow? p steps = t.follow? p steps := by
    intro steps
    induction steps with
    | nil => exact fun _ => rfl
    | cons step rest ih =>
      intro p
      rw [follow?_cons, follow?_cons, hplace]
      simp only [ih]
  rw [resolve?, resolve?, hfollow, hplace]

theorem resolve?_of_write {path content : String} (h : t.write path content = .ok t')
    (other : String) : t'.resolve? other = t.resolve? other :=
  resolve?_congr (hasDirectory_of_write h) other

theorem file?_put (names other : List String) (content : Option String) :
    (t.put names content).file? other = if other = names then content else t.file? other := by
  have hothers : ∀ entries : List (List String × Option String),
      (entries.filter (·.1 != names)).lookup other =
        if other = names then none else entries.lookup other := by
    intro entries
    induction entries with
    | nil => simp
    | cons entry rest ih =>
      obtain ⟨known, old⟩ := entry
      by_cases hknown : known = names
      · have hskip : ((known, old) :: rest).filter (·.1 != names) = rest.filter (·.1 != names) :=
          List.filter_cons_of_neg (by simpa using hknown)
        rw [hskip, ih]
        by_cases hother : other = names
        · rw [if_pos hother, if_pos hother]
        · have hne : (other == known) = false := by
            rw [hknown]
            simpa using hother
          rw [if_neg hother, if_neg hother, List.lookup_cons, hne]
      · have hkeep : ((known, old) :: rest).filter (·.1 != names) =
            (known, old) :: rest.filter (·.1 != names) :=
          List.filter_cons_of_pos (by simpa using hknown)
        rw [hkeep, List.lookup_cons, List.lookup_cons, ih]
        by_cases hother : other = names
        · have hne : (other == known) = false := by
            rw [hother]
            simpa using Ne.symm hknown
          simp only [hne, if_pos hother]
        · rw [if_neg hother, if_neg hother]
  rw [file?, file?, put, List.lookup_append, hothers]
  by_cases hother : other = names
  · subst hother
    simp
  · have hne : (other == names) = false := by simpa using hother
    simp [List.lookup_cons, hne, hother]

theorem file?_of_create {directory : List String} {steps : List Path.Step}
    (h : t.create directory steps = .ok t') : t'.file? names = t.file? names := by
  induction steps generalizing t directory with
  | nil =>
    cases h
    rfl
  | cons step rest ih =>
    cases step with
    | name name =>
      rw [create] at h
      split at h
      · exact ih h
      · split at h
        · cases h
        · rename_i hfile
          have hnone : t.file? (directory ++ [name]) = none := by simpa using hfile
          rw [ih h, file?_put]
          split
          · rename_i hnames
            rw [hnames, hnone]
          · rfl
    | up =>
      rw [create] at h
      split at h
      · cases h
      · exact ih h
    | here => exact ih h
    | root => cases h

/-- Directories are made without touching any file. -/
theorem file?_of_createDirectories {path : String} (h : t.createDirectories path = .ok t') :
    t'.file? names = t.file? names := by
  rw [createDirectories] at h
  split at h
  · exact file?_of_create h
  · cases h

theorem textAt?_of_write {path content : String} (h : t.write path content = .ok t')
    (other : String) :
    t'.textAt? other =
      if t.resolve? other = t.resolve? path then some content else t.textAt? other := by
  obtain ⟨parent, name, hplace, _, _, hput⟩ := write_eq_ok_iff.1 h
  rw [textAt?, textAt?, resolve?_of_write h, hplace, hput]
  cases hother : t.resolve? other with
  | none => simp
  | some p =>
    obtain ⟨above, names⟩ := p
    simp only [Option.bind_some, Option.some.injEq, Place.mk.injEq, file?_put]
    by_cases habove : above = 0
    · simp [habove]
    · have hlt : 0 < above := Nat.pos_of_ne_zero habove
      simp [habove, hlt]

def writeAll (t : FileTree) (units : List GeneratedUnit) : Except String FileTree :=
  units.foldlM (fun t u => t.write u.path u.text) t

theorem writeAll_cons_eq_ok_iff {u : GeneratedUnit} {units : List GeneratedUnit} :
    t.writeAll (u :: units) = .ok t' ↔
      ∃ t'', t.write u.path u.text = .ok t'' ∧ t''.writeAll units = .ok t' := by
  rw [writeAll, List.foldlM_cons]
  cases t.write u.path u.text with
  | error reason => simp [bind, Except.bind]
  | ok t'' => simp [bind, Except.bind, writeAll]

variable {units : List GeneratedUnit}

theorem resolve?_of_writeAll (h : t.writeAll units = .ok t') (path : String) :
    t'.resolve? path = t.resolve? path := by
  induction units generalizing t with
  | nil =>
    cases h
    rfl
  | cons u rest ih =>
    obtain ⟨t'', hwrite, hrest⟩ := writeAll_cons_eq_ok_iff.1 h
    rw [ih hrest, resolve?_of_write hwrite]

theorem textAt?_of_writeAll_of_ne (h : t.writeAll units = .ok t') {path : String}
    (hne : ∀ u ∈ units, t.resolve? path ≠ t.resolve? u.path) : t'.textAt? path = t.textAt? path := by
  induction units generalizing t with
  | nil =>
    cases h
    rfl
  | cons u rest ih =>
    obtain ⟨t'', hwrite, hrest⟩ := writeAll_cons_eq_ok_iff.1 h
    have hstill : ∀ v ∈ rest, t''.resolve? path ≠ t''.resolve? v.path := by
      intro v hv
      rw [resolve?_of_write hwrite, resolve?_of_write hwrite]
      exact hne v (List.mem_cons_of_mem u hv)
    rw [ih hrest hstill, textAt?_of_write hwrite, if_neg (hne u List.mem_cons_self)]

theorem file?_of_writeAll_of_ne (h : t.writeAll units = .ok t')
    (hne : ∀ u ∈ units, t.resolve? u.path ≠ some ⟨0, names⟩) : t'.file? names = t.file? names := by
  induction units generalizing t with
  | nil =>
    cases h
    rfl
  | cons u rest ih =>
    obtain ⟨t'', hwrite, hrest⟩ := writeAll_cons_eq_ok_iff.1 h
    have hstill : ∀ v ∈ rest, t''.resolve? v.path ≠ some ⟨0, names⟩ := by
      intro v hv
      rw [resolve?_of_write hwrite]
      exact hne v (List.mem_cons_of_mem u hv)
    obtain ⟨parent, name, hplace, -, -, rfl⟩ := write_eq_ok_iff.1 hwrite
    rw [ih hrest hstill, file?_put, if_neg]
    rintro rfl
    exact hne u List.mem_cons_self hplace

theorem writeAll_append_eq_ok_iff {before after : List GeneratedUnit} :
    t.writeAll (before ++ after) = .ok t' ↔
      ∃ t'', t.writeAll before = .ok t'' ∧ t''.writeAll after = .ok t' := by
  rw [writeAll, List.foldlM_append, ← writeAll]
  cases t.writeAll before with
  | error reason => simp [bind, Except.bind]
  | ok t'' => simp [bind, Except.bind, writeAll]

/-- A place holds the unit that was written there last. -/
theorem textAt?_of_writeAll_last {before after : List GeneratedUnit} {last : GeneratedUnit}
    (h : t.writeAll (before ++ last :: after) = .ok t')
    (hafter : ∀ u ∈ after, t.resolve? last.path ≠ t.resolve? u.path) :
    t'.textAt? last.path = some last.text := by
  obtain ⟨t₁, hbefore, hlast⟩ := writeAll_append_eq_ok_iff.1 h
  obtain ⟨t₂, hwrite, hrest⟩ := writeAll_cons_eq_ok_iff.1 hlast
  rw [textAt?_of_writeAll_of_ne hrest, textAt?_of_write hwrite, if_pos rfl]
  intro u hu
  rw [resolve?_of_write hwrite, resolve?_of_write hwrite, resolve?_of_writeAll hbefore,
    resolve?_of_writeAll hbefore]
  exact hafter u hu

theorem textAt?_of_writeAll (h : t.writeAll units = .ok t')
    (hplaces : units.Pairwise fun u v => t.resolve? u.path ≠ t.resolve? v.path) :
    ∀ u ∈ units, t'.textAt? u.path = some u.text := by
  intro u hu
  obtain ⟨before, after, rfl⟩ := List.append_of_mem hu
  have hafter := (List.pairwise_cons.1 (List.pairwise_append.1 hplaces).2.1).1
  exact textAt?_of_writeAll_last h hafter

theorem isSome_resolve?_of_writeAll (h : t.writeAll units = .ok t') :
    ∀ u ∈ units, ∃ p, t.resolve? u.path = some p := by
  induction units generalizing t with
  | nil => simp
  | cons u rest ih =>
    obtain ⟨t'', hwrite, hrest⟩ := writeAll_cons_eq_ok_iff.1 h
    intro v hv
    rcases List.mem_cons.1 hv with rfl | hv
    · obtain ⟨_, _, hplace, _⟩ := write_eq_ok_iff.1 hwrite
      exact ⟨_, hplace⟩
    · obtain ⟨p, hp⟩ := ih hrest v hv
      exact ⟨p, (resolve?_of_write hwrite v.path) ▸ hp⟩

/-- A path to a file or to where one can be made. -/
def IsWritable (t : FileTree) (path : String) : Prop :=
  ∃ parent name, t.resolve? path = some ⟨0, parent ++ [name]⟩ ∧ t.hasDirectory parent ∧
    ¬ t.hasDirectory (parent ++ [name])

theorem exists_write_eq_ok_iff {path content : String} :
    (∃ t', t.write path content = .ok t') ↔ t.IsWritable path := by
  constructor
  · rintro ⟨t', h⟩
    obtain ⟨parent, name, hplace, hparent, hfile, -⟩ := write_eq_ok_iff.1 h
    exact ⟨parent, name, hplace, hparent, hfile⟩
  · rintro ⟨parent, name, hplace, hparent, hfile⟩
    exact ⟨_, write_eq_ok_iff.2 ⟨parent, name, hplace, hparent, hfile, rfl⟩⟩

theorem isWritable_of_write {path content : String} (h : t.write path content = .ok t')
    (other : String) : t'.IsWritable other ↔ t.IsWritable other := by
  rw [IsWritable, IsWritable, resolve?_of_write h, hasDirectory_of_write h]

/-- Units can be written in a row if each of them can. -/
theorem exists_writeAll_eq_ok_iff :
    (∃ t', t.writeAll units = .ok t') ↔ ∀ u ∈ units, t.IsWritable u.path := by
  induction units generalizing t with
  | nil => exact ⟨fun _ => List.forall_mem_nil _, fun _ => ⟨t, rfl⟩⟩
  | cons u rest ih =>
    rw [List.forall_mem_cons]
    constructor
    · rintro ⟨t', h⟩
      obtain ⟨t'', hwrite, hrest⟩ := writeAll_cons_eq_ok_iff.1 h
      refine ⟨exists_write_eq_ok_iff.1 ⟨t'', hwrite⟩, fun v hv => ?_⟩
      exact (isWritable_of_write hwrite v.path).1 (ih.1 ⟨t', hrest⟩ v hv)
    · rintro ⟨hu, hrest⟩
      obtain ⟨t'', hwrite⟩ := exists_write_eq_ok_iff.2 hu
      obtain ⟨t', h⟩ := ih.2 fun v hv => (isWritable_of_write hwrite v.path).2 (hrest v hv)
      exact ⟨t', writeAll_cons_eq_ok_iff.2 ⟨t'', hwrite, h⟩⟩

end FileTree
end CaseUnion
