import CaseUnion.Proofs.CollectedUnits
import CaseUnion.Proofs.DeclarationKeys
import CaseUnion.Proofs.PathSteps
import CaseUnion.Proofs.WrittenUnits

/-!
# The files of a generation

Every union has a file of its own exactly if the escaped paths of the unions are different
(`nodup_fileName_iff`), and they are if escaping confuses no names (`nodup_escapedPath`). Then a
generation that succeeds keeps every unit, in memory and on disk: `generation_keeps_units`.
-/

namespace CaseUnion

theorem nodup_map_iff {α β γ : Type} {f : α → β} {g : α → γ} {xs : List α}
    (h : ∀ x ∈ xs, ∀ y ∈ xs, f x = f y ↔ g x = g y) : (xs.map f).Nodup ↔ (xs.map g).Nodup := by
  rw [List.Nodup, List.Nodup, List.pairwise_map, List.pairwise_map]
  constructor
  · intro hf
    exact hf.imp_of_mem fun hx hy hne heq => hne ((h _ hx _ hy).2 heq)
  · intro hg
    exact hg.imp_of_mem fun hx hy hne heq => hne ((h _ hx _ hy).1 heq)

/-- A union declared in a document whose names are host identifiers. -/
def UnionType.IsNamed (u : UnionType) : Prop :=
  ∃ key d e, u.Declared key d e ∧ d.HasIdentifiers

namespace UnionType

variable {u v : UnionType} {s : Settings}

theorem fileName_eq_iff (hu : u.IsNamed) (hv : v.IsNamed) :
    u.fileName s = v.fileName s ↔ u.descriptor.escapedPath = v.descriptor.escapedPath := by
  obtain ⟨_, d, e, hdeclared, hd⟩ := hu
  obtain ⟨_, d', e', hdeclared', hd'⟩ := hv
  have hstem := Descriptor.fileStem_eq_iff hd.nameSpace hd'.nameSpace
    (fun t ht => hd.headers _ (hdeclared.headers t ht))
    (fun t ht => hd'.headers _ (hdeclared'.headers t ht))
  rw [fileName, fileName, String.append_left_inj, hdeclared.descriptor, hdeclared'.descriptor]
  exact hstem

theorem fileStem_isName (hu : u.IsNamed) :
    '/' ∉ u.descriptor.fileStem.toList ∧
      ∃ first rest, u.descriptor.fileStem.toList = first :: rest ∧ first ≠ '.' := by
  obtain ⟨_, d, e, hdeclared, hd⟩ := hu
  rw [hdeclared.descriptor]
  exact Descriptor.fileStem_isName hd.nameSpace fun t ht => hd.headers _ (hdeclared.headers t ht)

/-- The stem takes up one component of the path of the unit, and nothing else depends on it. -/
theorem steps_join_fileName (hu : u.IsNamed) {first : List Char} {others : List (List Char)}
    (hsuffix : Path.parts s.generatedSuffix.toList = first :: others) (directory : String) :
    Path.steps (Path.join directory (u.fileName s)) =
      Path.steps directory ++ .name (String.ofList (u.descriptor.fileStem.toList ++ first)) ::
        others.filterMap Path.innerStep? := by
  obtain ⟨hslash, c, rest, hstem, hdot⟩ := fileStem_isName hu
  have hname : (u.fileName s).toList = c :: (rest ++ s.generatedSuffix.toList) := by
    rw [fileName, String.toList_append, hstem]
    rfl
  have hc : c ≠ '/' := by
    rintro rfl
    exact hslash (hstem ▸ List.mem_cons_self)
  rw [Path.steps_join hname hdot hc, fileName, String.toList_append,
    Path.inner_append hslash ⟨c, rest, hstem, hdot⟩ hsuffix]

theorem fileStem_eq_of_name_eq {first : List Char}
    (h : String.ofList (u.descriptor.fileStem.toList ++ first) =
      String.ofList (v.descriptor.fileStem.toList ++ first)) : u.fileName s = v.fileName s := by
  have hchars := String.ofList_injective h
  rw [fileName, fileName, String.toList_inj.1 (List.append_cancel_right hchars)]

theorem same_join_fileName_iff (hu : u.IsNamed) (hv : v.IsNamed) (directory : String) :
    Path.same (Path.join directory (u.fileName s)) (Path.join directory (v.fileName s)) ↔
      u.fileName s = v.fileName s := by
  constructor
  · intro h
    cases hsuffix : Path.parts s.generatedSuffix.toList with
    | nil => exact absurd hsuffix (Path.parts_ne_nil _)
    | cons first others =>
      have hsteps := Path.same_iff.1 h
      rw [steps_join_fileName hu hsuffix, steps_join_fileName hv hsuffix] at hsteps
      have hname := (List.cons.inj (List.append_cancel_left hsteps)).1
      exact fileStem_eq_of_name_eq (Path.Step.name.inj hname)
  · intro h
    rw [h]
    exact Path.same_iff.2 rfl

end UnionType
namespace FileTree

variable {t : FileTree}

theorem follow?_names {steps : List Path.Step} {names : List String} {q : Place}
    (hnames : ∀ step ∈ steps, ∃ name, step = .name name) (h : t.follow? ⟨0, names⟩ steps = some q) :
    ∃ more, q = ⟨0, names ++ more⟩ := by
  induction steps generalizing names with
  | nil =>
    cases h
    exact ⟨[], by simp⟩
  | cons step rest ih =>
    obtain ⟨name, rfl⟩ := hnames step List.mem_cons_self
    rw [follow?_cons] at h
    split at h
    · obtain ⟨more, rfl⟩ := ih (fun other hother => hnames other (List.mem_cons_of_mem _ hother)) h
      exact ⟨name :: more, by simp⟩
    · cases h

/-- Different names in one directory lead to different places, whatever names follow. -/
theorem name_eq_of_follow?_eq {directory tail : List Path.Step} {a b : String} {q : Place}
    (htail : ∀ step ∈ tail, ∃ name, step = .name name)
    (ha : t.follow? {} (directory ++ .name a :: tail) = some q)
    (hb : t.follow? {} (directory ++ .name b :: tail) = some q) : a = b := by
  have hbelow : ∀ name, t.follow? {} (directory ++ .name name :: tail) = some q →
      ∃ base more, t.follow? {} directory = some base ∧ q.names = base.names ++ name :: more := by
    intro name h
    rw [follow?_append] at h
    obtain ⟨base, hbase, h⟩ := Option.bind_eq_some_iff.1 h
    simp only [follow?_cons, next?] at h
    split at h
    · split at h
      · cases h
      · obtain ⟨more, rfl⟩ := follow?_names htail h
        exact ⟨base, more, hbase, by simp⟩
    · cases h
  obtain ⟨base, more, hbase, hnames⟩ := hbelow a ha
  obtain ⟨base', more', hbase', hnames'⟩ := hbelow b hb
  have hsame : base = base' := Option.some.inj (hbase.symm.trans hbase')
  subst hsame
  exact (List.cons.inj (List.append_cancel_left (hnames.symm.trans hnames'))).1

end FileTree

/-- The ending of generated files does not lead up again from what stands in front of it. -/
def Settings.SuffixDescends (s : Settings) : Prop :=
  ['.', '.'] ∉ (Path.parts s.generatedSuffix.toList).tail

theorem Path.exists_name_of_mem {parts : List (List Char)} (h : ['.', '.'] ∉ parts) :
    ∀ step ∈ parts.filterMap innerStep?, ∃ name, step = .name name := by
  intro step hstep
  obtain ⟨part, hpart, hinner⟩ := List.mem_filterMap.1 hstep
  have hup : part ≠ ['.', '.'] := fun heq => h (heq ▸ hpart)
  rw [innerStep?, if_neg hup] at hinner
  split at hinner
  · cases hinner
  · cases hinner
    exact ⟨_, rfl⟩

namespace UnionType

variable {u v : UnionType} {s : Settings} {t : FileTree}

theorem fileName_eq_of_resolve?_eq (hu : u.IsNamed) (hv : v.IsNamed) (hsuffix : s.SuffixDescends)
    {directory : String} {q : FileTree.Place}
    (hplace : t.resolve? (Path.join directory (u.fileName s)) = some q)
    (hplace' : t.resolve? (Path.join directory (v.fileName s)) = some q) :
    u.fileName s = v.fileName s := by
  cases hparts : Path.parts s.generatedSuffix.toList with
  | nil => exact absurd hparts (Path.parts_ne_nil _)
  | cons first others =>
    have htail := Path.exists_name_of_mem (by simpa [Settings.SuffixDescends, hparts] using hsuffix)
    have hfollow := FileTree.follow?_of_resolve? hplace
    have hfollow' := FileTree.follow?_of_resolve? hplace'
    rw [steps_join_fileName hu hparts] at hfollow
    rw [steps_join_fileName hv hparts] at hfollow'
    exact fileStem_eq_of_name_eq (FileTree.name_eq_of_follow?_eq htail hfollow hfollow')

end UnionType

namespace Generation

theorem conclude_eq_ok_iff {failures : List Failure} {results : List (Except Failure String)}
    {written : List String} :
    conclude failures results = .ok written ↔
      failures = [] ∧ failuresOf results = [] ∧ written = successes results := by
  rw [← and_assoc, ← List.append_eq_nil_iff, conclude]
  cases failures ++ failuresOf results with
  | nil => simp [eq_comm]
  | cons first rest => cases rest <;> simp

theorem exists_eq_map_of_failuresOf_eq_nil {α : Type} {results : List (Except Failure α)}
    (h : failuresOf results = []) : ∃ values : List α, results = values.map .ok := by
  induction results with
  | nil => exact ⟨[], rfl⟩
  | cons result rest ih =>
    cases result with
    | error failure => cases h
    | ok value =>
      obtain ⟨values, hvalues⟩ := ih h
      exact ⟨value :: values, by rw [hvalues]; rfl⟩

theorem successes_map_ok {α : Type} (values : List α) : successes (values.map .ok) = values := by
  induction values with
  | nil => rfl
  | cons value rest ih => exact congrArg (value :: ·) ih

def unitPath (g : Generation) (u : UnionType) : String :=
  Path.join g.settings.outputDir (u.fileName g.settings)

theorem unit_eq_ok_iff {g : Generation} {u : UnionType} {unit : GeneratedUnit} :
    g.unit u = .ok unit ↔ unit.path = g.unitPath u ∧ u.emit g.settings = .ok unit.text := by
  rw [Generation.unit]
  cases u.emit g.settings with
  | error failure => simp [bind, Except.bind]
  | ok text =>
    simp only [bind, Except.bind, pure, Except.pure, Except.ok.injEq]
    rw [unitPath]
    constructor
    · rintro rfl
      dsimp only
      exact ⟨rfl, rfl⟩
    · rintro ⟨hpath, rfl⟩
      rw [← hpath]

theorem paths_of_units {g : Generation} {unions : List UnionType} {units : List GeneratedUnit}
    (h : unions.map g.unit = units.map .ok) : units.map (·.path) = unions.map g.unitPath := by
  induction unions generalizing units with
  | nil =>
    cases units with
    | nil => rfl
    | cons unit rest => cases h
  | cons u others ih =>
    cases units with
    | nil => cases h
    | cons unit rest =>
      obtain ⟨hunit, hrest⟩ := List.cons.inj h
      rw [List.map_cons, List.map_cons, ih hrest, (unit_eq_ok_iff.1 hunit).1]

theorem exists_unit_of_mem {g : Generation} {units : List GeneratedUnit}
    (h : g.units = units.map .ok) {u : UnionType} (hu : u ∈ g.extraction.unions) :
    ∃ unit ∈ units, unit.path = g.unitPath u ∧ u.emit g.settings = .ok unit.text := by
  have hmem : g.unit u ∈ units.map .ok := by
    rw [← h]
    exact List.mem_map_of_mem hu
  obtain ⟨unit, hunit, heq⟩ := List.mem_map.1 hmem
  exact ⟨unit, hunit, unit_eq_ok_iff.1 heq.symm⟩

theorem isNamed_of_mem_unions {g : Generation} (hnames : ∀ d ∈ g.documents, d.HasIdentifiers)
    {u : UnionType} (hu : u ∈ g.extraction.unions) : u.IsNamed := by
  obtain ⟨kept, hunions, _, hdeclared⟩ := Compilation.exists_keys g.documents g.settings
  rw [extraction, compilation, hunions] at hu
  obtain ⟨x, hx, rfl⟩ := List.mem_map.1 hu
  obtain ⟨d, hd, e, he⟩ := hdeclared x hx
  exact ⟨x.1, d, e, he, hnames d hd⟩

theorem nodup_fileName_iff {g : Generation} (hnames : ∀ d ∈ g.documents, d.HasIdentifiers) :
    (g.extraction.unions.map (·.fileName g.settings)).Nodup ↔
      (g.extraction.unions.map (·.descriptor.escapedPath)).Nodup :=
  nodup_map_iff fun _ hu _ hv => UnionType.fileName_eq_iff
    (isNamed_of_mem_unions hnames hu) (isNamed_of_mem_unions hnames hv)

theorem nodup_escapedPath {g : Generation} (hnames : ∀ d ∈ g.documents, d.HasIdentifiers)
    (hplain : ∀ d ∈ g.documents, d.IsPlain) :
    (g.extraction.unions.map (·.descriptor.escapedPath)).Nodup := by
  obtain ⟨kept, hunions, hnodup, hdeclared⟩ := Compilation.exists_keys g.documents g.settings
  rw [extraction, compilation, hunions, List.map_map]
  rw [List.Nodup, List.pairwise_map] at hnodup ⊢
  -- where nothing is confused the path determines the key, and no two unions have one key
  refine hnodup.imp_of_mem fun {x y} hx hy hne heq => hne ?_
  obtain ⟨d, hd, e, he⟩ := hdeclared x hx
  obtain ⟨d', hd', e', he'⟩ := hdeclared y hy
  have hkey := key_of_escapedPath (hnames d hd) (hplain d hd) he.headers
  have hkey' := key_of_escapedPath (hnames d' hd') (hplain d' hd') he'.headers
  rw [← he.key, ← he.descriptor] at hkey
  rw [← he'.key, ← he'.descriptor] at hkey'
  apply String.toList_inj.1
  rw [hkey, hkey']
  exact congrArg (fun path => ['.'].intercalate (path.map Descriptor.keyPart)) heq

section
variable {g : Generation} {units : List GeneratedUnit} {t t' : FileTree}

theorem run_change (f : FileTree → Except String FileTree) (t : FileTree) :
    (FileTree.change f).run t =
      match f t with
      | .ok t' => (.ok (), t')
      | .error reason => (.error reason, t) := by
  have hget : (get : StateM FileTree FileTree).run t = pure (t, t) := rfl
  rw [FileTree.change, StateT.run_bind, hget, pure_bind]
  cases f t <;> rfl

theorem run_writeUnit (u : GeneratedUnit) (t : FileTree) :
    (writeUnit u : StateM FileTree _).run t =
      match t.write u.path u.text with
      | .ok t' => (.ok u.path, t')
      | .error reason => (.error (.of (.inputOutput reason)), t) := by
  simp only [writeUnit, FileSystem.write, StateT.run_bind, run_change]
  cases t.write u.path u.text <;> rfl

/-- If no result of writing is a failure, then all units were written, one after the other. -/
theorem exists_writeAll_of_run {results : List (Except Failure GeneratedUnit)}
    {f : Except Failure GeneratedUnit → StateM FileTree (Except Failure String)}
    (hok : ∀ u, f (.ok u) = writeUnit u)
    (herror : ∀ failure, f (.error failure) = pure (.error failure))
    {written : List (Except Failure String)} (h : (results.mapM f).run t = (written, t'))
    (hwritten : failuresOf written = []) :
    ∃ units, results = units.map .ok ∧ t.writeAll units = .ok t' := by
  induction results generalizing t written with
  | nil =>
    rw [List.mapM_nil] at h
    cases h
    exact ⟨[], rfl, rfl⟩
  | cons result rest ih =>
    rw [List.mapM_cons, StateT.run_bind] at h
    cases result with
    | error failure =>
      rw [herror, StateT.run_pure, pure_bind, StateT.run_bind] at h
      cases h
      cases hwritten
    | ok u =>
      rw [hok, run_writeUnit] at h
      cases hwrite : t.write u.path u.text with
      | error reason =>
        rw [hwrite] at h
        cases h
        cases hwritten
      | ok t'' =>
        rw [hwrite] at h
        have hrest : (rest.mapM f).run t'' = (((rest.mapM f).run t'').1, t') := by
          cases h
          rfl
        have hnone : failuresOf ((rest.mapM f).run t'').1 = [] := by
          cases h
          exact hwritten
        obtain ⟨units, rfl, hunits⟩ := ih hrest hnone
        exact ⟨u :: units, rfl, FileTree.writeAll_cons_eq_ok_iff.2 ⟨t'', hwrite, hunits⟩⟩

theorem exists_writeAll_of_conclude
    {f : Except Failure GeneratedUnit → StateM FileTree (Except Failure String)}
    (hok : ∀ u, f (.ok u) = writeUnit u)
    (herror : ∀ failure, f (.error failure) = pure (.error failure)) {written : List String}
    (h : (do return conclude g.extraction.failures (← g.units.mapM f)).run t = (.ok written, t')) :
    ∃ units : List GeneratedUnit, g.units = units.map .ok ∧ t.writeAll units = .ok t' := by
  have hrun : (g.units.mapM f).run t = (((g.units.mapM f).run t).1, t') := by
    rw [StateT.run_bind] at h
    exact congrArg (Prod.mk _) (congrArg Prod.snd h)
  have hconclude : conclude g.extraction.failures ((g.units.mapM f).run t).1 = .ok written := by
    rw [StateT.run_bind] at h
    exact congrArg Prod.fst h
  exact exists_writeAll_of_run hok herror hrun (conclude_eq_ok_iff.1 hconclude).2.1

/-- A generation on disk that succeeds has written every unit into the directories it made. -/
theorem exists_writeAll_of_toFiles (hdisk : g.settings.inMemory = false) {written : List String}
    (h : (g.toFiles : StateM FileTree _).run t = (.ok written, t')) :
    ∃ (made : FileTree) (units : List GeneratedUnit),
      g.units = units.map .ok ∧ made.writeAll units = .ok t' := by
  rw [toFiles, hdisk, if_neg Bool.false_ne_true] at h
  dsimp only at h
  split at h
  · exact ⟨t, exists_writeAll_of_conclude (fun _ => rfl) (fun _ => rfl) h⟩
  · rw [StateT.run_bind] at h
    have hmade := run_change (·.createDirectories g.settings.outputDir) t
    simp only [FileSystem.createDirectories, hmade] at h
    cases hcreate : t.createDirectories g.settings.outputDir with
    | error reason =>
      rw [hcreate] at h
      cases h
    | ok made =>
      rw [hcreate] at h
      exact ⟨made, exists_writeAll_of_conclude (fun _ => rfl) (fun _ => rfl) h⟩

theorem failuresOf_map {α β : Type} (f : α → β) (results : List (Except Failure α)) :
    failuresOf (results.map fun r => r.map f) = failuresOf results := by
  induction results with
  | nil => rfl
  | cons result rest ih =>
    cases result with
    | ok value => exact ih
    | error failure => exact congrArg (failure :: ·) ih

/-- A generation in memory collects its units. -/
theorem collected_of_units (hunits : g.units = units.map .ok) :
    (g.inMemory true).2 = Collected.collect [] units := by
  rw [inMemory, hunits, successes_map_ok]
  exact MemoryFiles.collected_run {} units

theorem exists_collect_of_inMemory {written : List String}
    (h : (g.inMemory true).1 = .ok written) :
    ∃ units : List GeneratedUnit, g.units = units.map .ok ∧
      (g.inMemory true).2 = Collected.collect [] units := by
  have hnone := (conclude_eq_ok_iff.1 h).2.1
  rw [failuresOf_map] at hnone
  obtain ⟨units, hunits⟩ := exists_eq_map_of_failuresOf_eq_nil hnone
  exact ⟨units, hunits, collected_of_units hunits⟩

/-- The paths of all units are different exactly if the file names of the unions are. -/
theorem pairwise_not_same_iff (hnames : ∀ d ∈ g.documents, d.HasIdentifiers)
    (hunits : g.units = units.map .ok) :
    (units.Pairwise fun u v => ¬ Path.same u.path v.path) ↔
      (g.extraction.unions.map (·.fileName g.settings)).Nodup := by
  have hmap : (units.Pairwise fun u v => ¬ Path.same u.path v.path) ↔
      (units.map (·.path)).Pairwise fun p q => ¬ Path.same p q := by
    rw [List.pairwise_map]
  have hsame : ∀ u ∈ g.extraction.unions, ∀ v ∈ g.extraction.unions,
      Path.same (g.unitPath u) (g.unitPath v) ↔ u.fileName g.settings = v.fileName g.settings :=
    fun u hu v hv => UnionType.same_join_fileName_iff (isNamed_of_mem_unions hnames hu)
      (isNamed_of_mem_unions hnames hv) _
  rw [hmap, paths_of_units hunits, List.Nodup, List.pairwise_map, List.pairwise_map]
  constructor
  · intro h
    exact h.imp_of_mem fun hu hv hne heq => hne ((hsame _ hu _ hv).2 heq)
  · intro h
    exact h.imp_of_mem fun hu hv hne heq => hne ((hsame _ hu _ hv).1 heq)

theorem pairwise_resolve?_ne (hnames : ∀ d ∈ g.documents, d.HasIdentifiers)
    (hsuffix : g.settings.SuffixDescends)
    (hnodup : (g.extraction.unions.map (·.fileName g.settings)).Nodup)
    (hunits : g.units = units.map .ok) (hwrite : t.writeAll units = .ok t') :
    units.Pairwise fun u v => t.resolve? u.path ≠ t.resolve? v.path := by
  rw [List.Nodup, List.pairwise_map] at hnodup
  have hleads : ∀ u ∈ g.extraction.unions, ∃ q, t.resolve? (g.unitPath u) = some q := by
    intro u hu
    obtain ⟨unit, hunit, hpath, _⟩ := exists_unit_of_mem hunits hu
    rw [← hpath]
    exact FileTree.isSome_resolve?_of_writeAll hwrite unit hunit
  have hplaces : (units.map (·.path)).Pairwise fun p q => t.resolve? p ≠ t.resolve? q := by
    rw [paths_of_units hunits, List.pairwise_map]
    refine hnodup.imp_of_mem fun {u v} hu hv hne heq => hne ?_
    obtain ⟨q, hq⟩ := hleads u hu
    exact UnionType.fileName_eq_of_resolve?_eq (isNamed_of_mem_unions hnames hu)
      (isNamed_of_mem_unions hnames hv) hsuffix hq (heq ▸ hq)
  rwa [List.pairwise_map] at hplaces

/-- What a successful generation leaves in memory: as many texts as there are unions exactly if the
file names are different, and then the unit of each union. -/
theorem inMemory_keeps_units (hnames : ∀ d ∈ g.documents, d.HasIdentifiers) {written : List String}
    (h : (g.inMemory true).1 = .ok written) :
    ((g.inMemory true).2.length = g.extraction.unions.length ↔
        (g.extraction.unions.map (·.fileName g.settings)).Nodup) ∧
      ((g.extraction.unions.map (·.fileName g.settings)).Nodup →
        ∀ u ∈ g.extraction.unions, ∃ text, u.emit g.settings = .ok text ∧
          (g.inMemory true).2.get? (g.unitPath u) = some text) := by
  obtain ⟨units, hunits, hcollected⟩ := exists_collect_of_inMemory h
  have hlength : units.length = g.extraction.unions.length := by
    have hpaths := congrArg List.length (paths_of_units hunits)
    rwa [List.length_map, List.length_map] at hpaths
  have hsorted : Collected.Sorted ([] : Collected) := List.Pairwise.nil
  have hcount := Collected.length_collect_eq_iff units hsorted
  rw [List.length_nil, Nat.zero_add] at hcount
  rw [hcollected, ← hlength, hcount, ← pairwise_not_same_iff hnames hunits]
  constructor
  · exact and_iff_left fun u _ x hx => absurd hx List.not_mem_nil
  · intro hpaths u hu
    obtain ⟨unit, hunit, hpath, hemit⟩ := exists_unit_of_mem hunits hu
    refine ⟨unit.text, hemit, ?_⟩
    rw [← hpath]
    exact Collected.get?_collect [] hpaths unit hunit

/-- What a successful generation leaves on disk: if the unions have different places, the unit of
each union. They have different names then, and different names are enough unless the configured
ending leads up again. -/
theorem toFiles_keeps_units (hnames : ∀ d ∈ g.documents, d.HasIdentifiers)
    (hdisk : g.settings.inMemory = false) {written : List String}
    (h : (g.toFiles : StateM FileTree _).run t = (.ok written, t')) :
    ((g.extraction.unions.map fun u => t'.resolve? (g.unitPath u)).Nodup →
        (g.extraction.unions.map (·.fileName g.settings)).Nodup ∧
          ∀ u ∈ g.extraction.unions, ∃ text, u.emit g.settings = .ok text ∧
            t'.textAt? (g.unitPath u) = some text) ∧
      (g.settings.SuffixDescends → (g.extraction.unions.map (·.fileName g.settings)).Nodup →
        (g.extraction.unions.map fun u => t'.resolve? (g.unitPath u)).Nodup) := by
  obtain ⟨made, units, hunits, hwrite⟩ := exists_writeAll_of_toFiles hdisk h
  have hplace : ∀ path, t'.resolve? path = made.resolve? path :=
    FileTree.resolve?_of_writeAll hwrite
  have hiff : (g.extraction.unions.map fun u => t'.resolve? (g.unitPath u)).Nodup ↔
      units.Pairwise fun u v => made.resolve? u.path ≠ made.resolve? v.path := by
    have hmap : (units.Pairwise fun u v => made.resolve? u.path ≠ made.resolve? v.path) ↔
        (units.map (·.path)).Pairwise fun p q => made.resolve? p ≠ made.resolve? q := by
      rw [List.pairwise_map]
    rw [hmap, paths_of_units hunits, List.Nodup, List.pairwise_map, List.pairwise_map]
    simp only [hplace]
  constructor
  · intro hplaces
    constructor
    · rw [List.Nodup, List.pairwise_map] at hplaces ⊢
      refine hplaces.imp fun hne heq => hne ?_
      rw [unitPath, unitPath, heq]
    · intro u hu
      obtain ⟨unit, hunit, hpath, hemit⟩ := exists_unit_of_mem hunits hu
      refine ⟨unit.text, hemit, ?_⟩
      rw [← hpath]
      exact FileTree.textAt?_of_writeAll hwrite (hiff.1 hplaces) unit hunit
  · intro hsuffix hnodup
    exact hiff.2 (pairwise_resolve?_ne hnames hsuffix hnodup hunits hwrite)

end

/-- The file names of the unions are different exactly if their escaped paths are, which is so if
escaping confuses no names. A successful generation keeps the units of all unions exactly then. -/
theorem generation_keeps_units (g : Generation) (hnames : ∀ d ∈ g.documents, d.HasIdentifiers) :
    ((g.extraction.unions.map (·.fileName g.settings)).Nodup ↔
        (g.extraction.unions.map (·.descriptor.escapedPath)).Nodup) ∧
      ((∀ d ∈ g.documents, d.IsPlain) →
        (g.extraction.unions.map (·.fileName g.settings)).Nodup) ∧
      (∀ written, (g.inMemory true).1 = .ok written →
        ((g.inMemory true).2.length = g.extraction.unions.length ↔
            (g.extraction.unions.map (·.fileName g.settings)).Nodup) ∧
          ((g.extraction.unions.map (·.fileName g.settings)).Nodup →
            ∀ u ∈ g.extraction.unions, ∃ text, u.emit g.settings = .ok text ∧
              (g.inMemory true).2.get? (g.unitPath u) = some text)) ∧
      (g.settings.inMemory = false → ∀ (t t' : FileTree) written,
        (g.toFiles : StateM FileTree _).run t = (.ok written, t') →
          ((g.extraction.unions.map fun u => t'.resolve? (g.unitPath u)).Nodup →
              (g.extraction.unions.map (·.fileName g.settings)).Nodup ∧
                ∀ u ∈ g.extraction.unions, ∃ text, u.emit g.settings = .ok text ∧
                  t'.textAt? (g.unitPath u) = some text) ∧
            (g.settings.SuffixDescends → (g.extraction.unions.map (·.fileName g.settings)).Nodup →
              (g.extraction.unions.map fun u => t'.resolve? (g.unitPath u)).Nodup)) := by
  refine ⟨nodup_fileName_iff hnames, ?_, ?_, ?_⟩
  · intro hplain
    exact (nodup_fileName_iff hnames).2 (nodup_escapedPath hnames hplain)
  · intro written hwritten
    exact inMemory_keeps_units hnames hwritten
  · intro hdisk t t' written hrun
    exact toFiles_keeps_units hnames hdisk hrun

/-- The unions `Shape<T>` and `Shape`. -/
def sameNamed : Generation where
  settings := { outputDir := "out" }
  documents := [{ path := "shapes.json", nameSpace := some "Demo",
                  types := [.marked "Shape" ["T"] [{ name := "A" }],
                            .marked "Shape" [] [{ name := "A" }]] }]

theorem generation_keeps_sameNamed :
    (sameNamed.inMemory true).2.length = 2 ∧
      ∃ written files, (sameNamed.toFiles : StateM FileTree _).run {} = (.ok written, files) ∧
        sameNamed.extraction.unions.length = 2 ∧
        ∀ u ∈ sameNamed.extraction.unions, ∃ text, u.emit sameNamed.settings = .ok text ∧
          files.textAt? (sameNamed.unitPath u) = some text := by
  have hnames : ∀ d ∈ sameNamed.documents, d.HasIdentifiers := by decide +kernel
  have hplain : ∀ d ∈ sameNamed.documents, d.IsPlain := by decide +kernel
  have hcount : sameNamed.extraction.unions.length = 2 := by decide +kernel
  have hmemory : (sameNamed.inMemory true).1.isOk = true := by decide +kernel
  have hdisk : ((sameNamed.toFiles : StateM FileTree _).run {}).1.isOk = true := by
    decide +kernel
  have hsuffix : sameNamed.settings.SuffixDescends := by
    unfold Settings.SuffixDescends
    decide +kernel
  obtain ⟨_, hnodup, hkept, hfiles⟩ := generation_keeps_units sameNamed hnames
  constructor
  · cases hresult : (sameNamed.inMemory true).1 with
    | ok written => exact ((hkept written hresult).1.2 (hnodup hplain)).trans hcount
    | error failure =>
      rw [hresult] at hmemory
      cases hmemory
  · cases hrun : (sameNamed.toFiles : StateM FileTree _).run {} with
    | mk result files =>
      rw [hrun] at hdisk
      cases result with
      | ok written =>
        have hplaces := (hfiles rfl {} files written hrun).2 hsuffix (hnodup hplain)
        exact ⟨written, files, rfl, hcount, ((hfiles rfl {} files written hrun).1 hplaces).2⟩
      | error failure => cases hdisk

/-- The unions `Shape<T>` and `Shape_T_`, which escaping confuses. -/
def confused : Generation where
  settings := { outputDir := "out" }
  documents := [{ path := "shapes.json", nameSpace := some "Demo",
                  types := [.marked "Shape" ["T"] [{ name := "A" }],
                            .marked "Shape_T_" [] [{ name := "A" }]] }]

/-- Both units of `confused` are written without a failure, the second one over the first. -/
theorem generation_loses_confused :
    (∀ d ∈ confused.documents, d.HasIdentifiers) ∧
      confused.extraction.unions.map (·.fileName confused.settings) =
        ["Demo.Shape_T_.g.cs", "Demo.Shape_T_.g.cs"] ∧
      (confused.inMemory true).1.isOk = true ∧ (confused.inMemory true).2.length = 1 ∧
      ((confused.toFiles : StateM FileTree _).run {}).1.isOk = true ∧
      ∃ u ∈ confused.extraction.unions,
        (u.emit confused.settings).toOption ≠
          ((confused.toFiles : StateM FileTree _).run {}).2.textAt? (confused.unitPath u) := by
  have hlost : ∃ u ∈ confused.extraction.unions,
      (u.emit confused.settings).toOption ≠
        ((confused.toFiles : StateM FileTree _).run {}).2.textAt? (confused.unitPath u) :=
    ⟨confused.extraction.unions.head (by decide +kernel), List.head_mem _, by decide +kernel⟩
  exact ⟨by decide +kernel, by decide +kernel, by decide +kernel, by decide +kernel,
    by decide +kernel, hlost⟩

end Generation
end CaseUnion
