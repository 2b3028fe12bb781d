import CaseUnion.Proofs.DocumentRoundTrip
import CaseUnion.Proofs.FlushedUnits
import CaseUnion.Proofs.Loading

/-!
# Dry runs

What a run writes and what a dry run shows come from the same units. These may be written side by
side, so nothing is known of the order in which they are written or collected. Where no two of them
have one place, the order makes no difference (`exists_writeAll_of_perm`,
`Collected.collect_eq_of_perm`).
So the shown texts are those that are left in the files (`leaves_of_writeUnits`), and the failures are
the same. But a dry run that fails shows nothing, although the run that it stands for has written the
units of the other unions: `dryRun_shows_files`.
-/

namespace CaseUnion

/-! ### Files -/

namespace FileTree

variable {t t' : FileTree} {names : List String} {units : List GeneratedUnit}

/-- Paths with the same components lead to the same place if they lead anywhere. -/
theorem resolve?_eq_of_same {p q : String} (hsame : Path.same p q)
    (hp : ∃ a, t.resolve? p = some a) (hq : ∃ b, t.resolve? q = some b) :
    t.resolve? p = t.resolve? q := by
  obtain ⟨a, ha⟩ := hp
  obtain ⟨b, hb⟩ := hq
  have hfollow := follow?_of_resolve? ha
  rw [Path.same_iff.1 hsame, follow?_of_resolve? hb] at hfollow
  rw [ha, hb, hfollow]

section
variable (h : t.writeAll units = .ok t')
  (hplaces : units.Pairwise fun u v => t.resolve? u.path ≠ t.resolve? v.path)
include h hplaces

theorem pairwise_not_same : units.Pairwise fun u v => ¬ Path.same u.path v.path :=
  hplaces.imp_of_mem fun {u v} hu hv hne hsame => hne (resolve?_eq_of_same hsame
    (isSome_resolve?_of_writeAll h u hu) (isSome_resolve?_of_writeAll h v hv))

theorem textAt?_of_mem_collect {x : String × String} (hx : x ∈ Collected.collect [] units) :
    t'.textAt? x.1 = some x.2 := by
  obtain ⟨u, hu, rfl⟩ := (Collected.mem_collect_iff (pairwise_not_same h hplaces)).1 hx
  exact textAt?_of_writeAll h hplaces u hu

/-- Units can be written in every order, with the same texts in their places. -/
theorem exists_writeAll_of_perm {order : List GeneratedUnit} (horder : order.Perm units) :
    ∃ t'', t.writeAll order = .ok t'' ∧
      order.Pairwise fun u v => t.resolve? u.path ≠ t.resolve? v.path := by
  have hwritable := exists_writeAll_eq_ok_iff.1 ⟨t', h⟩
  obtain ⟨t'', hwrite⟩ := exists_writeAll_eq_ok_iff.2 fun u hu => hwritable u (horder.mem_iff.1 hu)
  exact ⟨t'', hwrite, horder.symm.pairwise hplaces fun hne => hne.symm⟩

end

end FileTree

/-! ### Runs -/

namespace Generation

variable {g : Generation} {units : List GeneratedUnit} {t t' : FileTree}

/-- The generation that keeps its units in memory instead. -/
def dry (g : Generation) : Generation := { g with settings := { g.settings with inMemory := true } }

theorem inMemory_dry (isAttached : Bool) : g.dry.inMemory isAttached = g.inMemory isAttached := rfl

/-- The tree with the output directory, which is made if there is anything to write. -/
def withOutput (g : Generation) (t : FileTree) : Except String FileTree :=
  if g.extraction.unions.isEmpty then .ok t else t.createDirectories g.settings.outputDir

/-- The tree with units written into the output directory in some order. -/
def writeUnitsIn (g : Generation) (order : List GeneratedUnit) (t : FileTree) :
    Except String FileTree :=
  (g.withOutput t).bind fun made => made.writeAll order

def writeUnits (g : Generation) (t : FileTree) : Except String FileTree :=
  g.writeUnitsIn (successes g.units) t

/-- What a generation collects that writes its units in some order. -/
def collectedIn (order : List GeneratedUnit) : Collected :=
  (MemoryFiles.run {} (memorySteps true 0 order)).collected

/-- No two unions have their units at one place of the tree. -/
def PlacesApart (g : Generation) (t : FileTree) : Prop :=
  g.extraction.unions.Pairwise fun u v => t.resolve? (g.unitPath u) ≠ t.resolve? (g.unitPath v)

instance (g : Generation) (t : FileTree) : Decidable (g.PlacesApart t) :=
  inferInstanceAs (Decidable (List.Pairwise _ _))

theorem file?_of_withOutput (h : g.withOutput t = .ok t') (names : List String) :
    t'.file? names = t.file? names := by
  rw [withOutput] at h
  split at h
  · cases h
    rfl
  · exact FileTree.file?_of_createDirectories h

theorem exists_made_of_writeUnitsIn (h : g.writeUnitsIn units t = .ok t') :
    ∃ made, g.withOutput t = .ok made ∧ made.writeAll units = .ok t' := by
  rw [writeUnitsIn] at h
  cases hmade : g.withOutput t with
  | error reason =>
    rw [hmade] at h
    cases h
  | ok made =>
    rw [hmade] at h
    exact ⟨made, rfl, h⟩

theorem exists_made_of_writeUnits (hunits : g.units = units.map .ok) (h : g.writeUnits t = .ok t') :
    ∃ made, g.withOutput t = .ok made ∧ made.writeAll units = .ok t' := by
  rw [writeUnits, hunits, successes_map_ok] at h
  exact exists_made_of_writeUnitsIn h

theorem run_mapM_of_writeAll {f : Except Failure GeneratedUnit → StateM FileTree (Except Failure String)}
    (hok : ∀ u, f (.ok u) = writeUnit u) (h : t.writeAll units = .ok t') :
    ((units.map .ok).mapM f).run t = (units.map fun u => .ok u.path, t') := by
  induction units generalizing t with
  | nil =>
    cases h
    rfl
  | cons u rest ih =>
    obtain ⟨t'', hwrite, hrest⟩ := FileTree.writeAll_cons_eq_ok_iff.1 h
    have hunit : (f (.ok u)).run t = (.ok u.path, t'') := by rw [hok, run_writeUnit, hwrite]
    rw [List.map_cons, List.mapM_cons, run_bind_of_run hunit, run_bind_of_run (ih hrest)]
    rfl

theorem run_conclude {f : Except Failure GeneratedUnit → StateM FileTree (Except Failure String)}
    (hok : ∀ u, f (.ok u) = writeUnit u) (h : t.writeAll units = .ok t') (failures : List Failure) :
    (do return conclude failures (← (units.map Except.ok).mapM f)).run t =
      (conclude failures (units.map fun u => .ok u.path), t') := by
  rw [run_bind_of_run (run_mapM_of_writeAll hok h)]
  rfl

theorem run_createDirectories {path : String} (h : t.createDirectories path = .ok t') :
    (FileSystem.createDirectories path : StateM FileTree _).run t = (.ok (), t') := by
  have hchange := run_change (·.createDirectories path) t
  rw [h] at hchange
  exact hchange

/-- If all units can be written, the answer is the same as in memory. -/
theorem run_toFiles (hdisk : g.settings.inMemory = false) (h : g.writeUnits t = .ok t') :
    (g.toFiles : StateM FileTree _).run t = ((g.inMemory true).1, t') := by
  obtain ⟨units, hemits⟩ := g.exists_emits
  have hunits := units_eq_map_ok hemits
  obtain ⟨made, hmade, hwrite⟩ := exists_made_of_writeUnits hunits h
  have hanswer : (g.inMemory true).1 =
      conclude g.extraction.failures (units.map fun u => .ok u.path) := by
    rw [inMemory, hunits, List.map_map]
    rfl
  rw [hanswer, toFiles, hdisk, if_neg Bool.false_ne_true, hunits]
  dsimp only
  rw [withOutput] at hmade
  split at hmade
  · rename_i hempty
    cases hmade
    rw [if_pos hempty, pure_bind]
    refine run_conclude ?_ hwrite _
    exact fun _ => rfl
  · rename_i hunions
    rw [if_neg hunions, run_bind_of_run (run_createDirectories hmade)]
    refine run_conclude ?_ hwrite _
    exact fun _ => rfl

/-- What the collected texts say about the files of a tree in which all units were written. -/
structure Leaves (g : Generation) (t t' : FileTree) : Prop where
  sorted : (g.inMemory true).2.Sorted
  shown : ∀ u ∈ g.extraction.unions, ∃ x ∈ (g.inMemory true).2,
    x.1 = g.unitPath u ∧ u.emit g.settings = .ok x.2
  unit : ∀ x ∈ (g.inMemory true).2, ∃ u ∈ g.extraction.unions,
    x.1 = g.unitPath u ∧ u.emit g.settings = .ok x.2
  left : ∀ x ∈ (g.inMemory true).2, t'.textAt? x.1 = some x.2
  others : ∀ names, (∀ x ∈ (g.inMemory true).2, t'.resolve? x.1 ≠ some ⟨0, names⟩) →
    t'.file? names = t.file? names

theorem pairwise_places (hunits : g.units = units.map .ok) (h : t.writeAll units = .ok t') :
    g.PlacesApart t' ↔ units.Pairwise fun u v => t.resolve? u.path ≠ t.resolve? v.path := by
  have hmap : (units.Pairwise fun u v => t.resolve? u.path ≠ t.resolve? v.path) ↔
      (units.map (·.path)).Pairwise fun p q => t.resolve? p ≠ t.resolve? q := by
    rw [List.pairwise_map]
  rw [hmap, paths_of_units hunits, List.pairwise_map, PlacesApart]
  simp only [FileTree.resolve?_of_writeAll h]

/-- Units that are written in any order leave the texts that are collected in any order. -/
theorem leaves_of_writeUnits (h : g.writeUnits t = .ok t') (hplaces : g.PlacesApart t')
    {order : List GeneratedUnit} (horder : order.Perm (successes g.units)) :
    collectedIn order = (g.inMemory true).2 ∧
      ∃ t'', g.writeUnitsIn order t = .ok t'' ∧ g.Leaves t t'' := by
  obtain ⟨units, hemits⟩ := g.exists_emits
  have hunits := units_eq_map_ok hemits
  rw [hunits, successes_map_ok] at horder
  obtain ⟨made, hmade, hwrite⟩ := exists_made_of_writeUnits hunits h
  have hapart := (pairwise_places hunits hwrite).1 hplaces
  have hpaths := FileTree.pairwise_not_same hwrite hapart
  have hcollected := collected_of_units hunits
  have hsame := Collected.collect_eq_of_perm horder hpaths
  obtain ⟨t'', hwrite', hapart'⟩ := FileTree.exists_writeAll_of_perm hwrite hapart horder
  have hmem {x : String × String} : x ∈ (g.inMemory true).2 ↔ ∃ u ∈ units, (u.path, u.text) = x := by
    rw [hcollected]
    exact Collected.mem_collect_iff hpaths
  refine ⟨?_, t'', ?_, ?_⟩
  · rw [hcollected, ← hsame]
    exact MemoryFiles.collected_run {} order
  · rw [writeUnitsIn, hmade]
    exact hwrite'
  constructor
  case sorted =>
    rw [hcollected]
    exact Collected.sorted_collect units List.Pairwise.nil
  case shown =>
    intro u hu
    obtain ⟨unit, hunit, hpath, hemit⟩ := exists_unit_of_mem hunits hu
    exact ⟨_, hmem.2 ⟨unit, hunit, rfl⟩, hpath, hemit⟩
  case unit =>
    intro x hx
    obtain ⟨unit, hunit, rfl⟩ := hmem.1 hx
    exact exists_union_of_mem hemits hunit
  case left =>
    intro x hx
    rw [hcollected, ← hsame] at hx
    exact FileTree.textAt?_of_mem_collect hwrite' hapart' hx
  case others =>
    intro names hne
    rw [FileTree.file?_of_writeAll_of_ne hwrite', file?_of_withOutput hmade]
    intro u hu hnames
    refine hne (u.path, u.text) (hmem.2 ⟨u, horder.mem_iff.1 hu, rfl⟩) ?_
    rw [FileTree.resolve?_of_writeAll hwrite', hnames]

theorem Leaves.eq_nil_iff (h : g.Leaves t t') :
    (g.inMemory true).2 = [] ↔ g.extraction.unions = [] := by
  constructor
  · intro hfiles
    refine List.eq_nil_iff_forall_not_mem.2 fun u hu => ?_
    obtain ⟨x, hx, -⟩ := h.shown u hu
    rw [hfiles] at hx
    cases hx
  · intro hunions
    refine List.eq_nil_iff_forall_not_mem.2 fun x hx => ?_
    obtain ⟨u, hu, -⟩ := h.unit x hx
    rw [hunions] at hu
    cases hu

end Generation

/-- What a command prints. -/
def Outcome.output : Outcome → String
  | .done _ output _ => output
  | .refused _ | .failed _ => ""

namespace Commands

variable {g : Generation} {s : Settings} {t t' : FileTree} {directory : Option String}
  {environment : Settings.Environment}

/-- The collected texts as a dry run prints them. -/
def shown (files : Collected) : String := String.join (files.map fun (path, text) => printed path text)

theorem printed_ne_empty (path text : String) : printed path text ≠ "" := by
  have hshape : printed path text = "// " ++ (path ++ "\n" ++ text ++ "\n") := by
    rw [printed]
    simp only [toString, String.append_assoc]
  rw [hshape]
  simp

theorem shown_eq_empty_iff {files : Collected} : shown files = "" ↔ files = [] := by
  cases files with
  | nil => simp [shown]
  | cons x rest => simp [shown, printed_ne_empty]

/-- What a generation reports and prints. -/
def report (answer : Except Failure (List String)) (output : String) : Outcome :=
  match answer with
  | .error failure => .failed failure
  | .ok _ => .done true output []

theorem run_generate_dry (g : Generation) (t : FileTree) :
    (generate g true : StateM FileTree _).run t =
      (report (g.inMemory true).1 (shown (g.inMemory true).2), t) := by
  rw [generate, if_pos rfl]
  cases g.inMemory true with
  | mk answer files => cases answer <;> rfl

theorem run_generate_write (hdisk : g.settings.inMemory = false) (h : g.writeUnits t = .ok t') :
    (generate g false : StateM FileTree _).run t = (report (g.inMemory true).1 "", t') := by
  rw [generate, if_neg Bool.false_ne_true, run_bind_of_run (Generation.run_toFiles hdisk h)]
  cases (g.inMemory true).1 <;> rfl

section
variable (hsettings : t.answer (Settings.load directory environment) = .ok s)
  (hload : t.answer (Generation.load s) = .ok g)
include hsettings hload

theorem run_fulfil_write : (fulfil environment ⟨directory, .generate false⟩ : StateM FileTree _).run t =
    (generate g false : StateM FileTree _).run t := by
  rw [fulfil, (Settings.readsOnly_load directory environment).run_bind hsettings]
  exact (Generation.readsOnly_load s).run_bind hload

theorem run_fulfil_dry : (fulfil environment ⟨directory, .generate true⟩ : StateM FileTree _).run t =
    (generate g.dry true : StateM FileTree _).run t := by
  have hsources : { s with inMemory := true }.sources = s.sources := rfl
  have hdry : t.answer (Generation.load { s with inMemory := true }) = .ok g.dry := by
    rw [Generation.load_congr hsources, hload, Generation.dry, Generation.settings_of_load hload]
    rfl
  rw [fulfil, (Settings.readsOnly_load directory environment).run_bind hsettings]
  exact (Generation.readsOnly_load _).run_bind hdry

end

/-- What a dry run and the run that it stands for report. A failure of any declaration keeps the dry
run from showing what the other run has written. -/
structure Agree (g : Generation) (dry real : Outcome) : Prop where
  succeed : g.extraction.failures = [] →
    dry = .done true (shown (g.inMemory true).2) [] ∧ real = .done true "" []
  fail : ∀ f, g.extraction.failures = [f] → dry = .failed f ∧ real = .failed f
  failTogether : 2 ≤ g.extraction.failures.length →
    dry = .failed (.several g.extraction.failures) ∧ real = .failed (.several g.extraction.failures)
  output : dry.output = shown (g.inMemory true).2 ↔
    g.extraction.failures = [] ∨ g.extraction.unions = []

theorem agree_report (hleaves : g.Leaves t t') :
    Agree g (report (g.inMemory true).1 (shown (g.inMemory true).2))
      (report (g.inMemory true).1 "") := by
  obtain ⟨units, hemits⟩ := g.exists_emits
  have hanswer := Generation.answer_of_units (Generation.units_eq_map_ok hemits)
  have hempty := hleaves.eq_nil_iff
  constructor
  case succeed =>
    intro hnone
    rw [hanswer, hnone]
    exact ⟨rfl, rfl⟩
  case fail =>
    intro f hone
    rw [hanswer, hone]
    exact ⟨rfl, rfl⟩
  case failTogether =>
    intro hlength
    rw [hanswer]
    rcases hfailures : g.extraction.failures with _ | ⟨first, _ | ⟨second, rest⟩⟩
    · simp [hfailures] at hlength
    · simp [hfailures] at hlength
    · exact ⟨rfl, rfl⟩
  case output =>
    rw [hanswer, ← hempty, ← shown_eq_empty_iff]
    rcases g.extraction.failures with _ | ⟨first, _ | ⟨second, rest⟩⟩
    · exact iff_of_true rfl (Or.inl rfl)
    · exact ⟨fun h => Or.inr h.symm, fun h => (h.resolve_left nofun).symm⟩
    · exact ⟨fun h => Or.inr h.symm, fun h => (h.resolve_left nofun).symm⟩

/-- If the settings and documents load and the units can be written, each to a place of its own, then
a dry run and the run that it stands for have the same failures, the texts in memory are those left in
the files, and the dry run shows them exactly if no declaration fails or there is nothing to show. It
is the same in whichever order the units are collected by the one run and written by the other. -/
theorem dryRun_shows_files (hsettings : t.answer (Settings.load directory environment) = .ok s)
    (hdisk : s.inMemory = false) (hload : t.answer (Generation.load s) = .ok g)
    (hwrite : g.writeUnits t = .ok t') (hplaces : g.PlacesApart t') :
    ∃ dry real,
      (fulfil environment ⟨directory, .generate true⟩ : StateM FileTree _).run t = (dry, t) ∧
        (fulfil environment ⟨directory, .generate false⟩ : StateM FileTree _).run t = (real, t') ∧
        Agree g dry real ∧ g.Leaves t t' ∧
        ∀ order : List GeneratedUnit, order.Perm (Generation.successes g.units) →
          Generation.collectedIn order = (g.inMemory true).2 ∧
            ∃ t'', g.writeUnitsIn order t = .ok t'' ∧ g.Leaves t t'' := by
  obtain ⟨_, t'', hsame, hleaves⟩ := Generation.leaves_of_writeUnits hwrite hplaces (.refl _)
  obtain rfl : t' = t'' := Except.ok.inj (hwrite.symm.trans hsame)
  have hgdisk : g.settings.inMemory = false := by rwa [Generation.settings_of_load hload]
  refine ⟨_, _, ?_, ?_, agree_report hleaves, hleaves, fun order horder =>
    Generation.leaves_of_writeUnits hwrite hplaces horder⟩
  · rw [run_fulfil_dry hsettings hload, run_generate_dry, Generation.inMemory_dry]
  · rw [run_fulfil_write hsettings hload, run_generate_write hgdisk hwrite]

end Commands

/-! ### Example trees -/

theorem eq_ok_of_toOption {ε α : Type} {x : Except ε α} {a : α} (h : x.toOption = some a) :
    x = .ok a := by
  cases x with
  | error e => cases h
  | ok b => exact congrArg Except.ok (Option.some.inj h)

theorem isStorable_marked {cases : List Method} (hcases : ∀ m ∈ cases, m.IsStorable)
    (name : String) (typeParameters : List String) :
    (TypeDecl.marked name typeParameters cases).IsStorable := by
  have hmarker : Attribute.IsStorable ⟨"DiscriminatedUnion", .empty⟩ := by
    simp [Attribute.IsStorable, AttributeArguments.empty]
  refine .mk ⟨?_, by simp⟩ (by simp) fun list hlist => ?_
  · simpa using hmarker
  · simp only [List.mem_singleton, Member.type.injEq] at hlist
    subst hlist
    refine .mk ⟨by simp, by simp⟩ ?_ (by simp)
    simpa using hcases

theorem isStorable_named (name : String) : Method.IsStorable { name := name } :=
  ⟨Datum.isRead_void, by simp, by simp⟩

def shapesSettings : Settings := { outputDir := "out", sources := { includes := ["shapes.json"] } }

def shapes (types : List TypeDecl) : Generation :=
  ⟨shapesSettings, [{ path := "shapes.json", types := types }]⟩

/-- The files that the settings and the document are loaded from. -/
def shapesTree (types : List TypeDecl) : FileTree :=
  ⟨[(["unionize.toml"], some "output-dir = \"out\"\n[sources]\ninclude = [\"shapes.json\"]\n"),
    (["shapes.json"], some (Json.pretty (Datum.ofDocument { path := "shapes.json", types := types })))]⟩

theorem answer_load_shapesTree {types : List TypeDecl} (hstorable : ∀ t ∈ types, t.IsStorable)
    (hfits : ∀ d ∈ (shapes types).documents, d.FitsJson)
    (hpaths : ((shapesTree types).answer shapesSettings.sources.paths).toOption = some ["shapes.json"])
    (hplace : (shapesTree types).resolve? "shapes.json" = some ⟨0, ["shapes.json"]⟩) :
    (shapesTree types).answer (Generation.load shapesSettings) = .ok (shapes types) := by
  let d : Document := { path := "shapes.json", types := types }
  have hextension : Path.extension? "shapes.json" = some "json" := by decide +kernel
  have hdocument : d.IsStorable := ⟨hstorable, nofun, nofun, nofun⟩
  have hread : Generation.Reads (shapesTree types) "shapes.json" d := by
    refine ⟨Json.pretty (Datum.ofDocument d), ?_, ?_⟩
    · have htext : (shapesTree types).textAt? "shapes.json" =
          some (Json.pretty (Datum.ofDocument d)) := by
        rw [FileTree.textAt?, hplace]
        rfl
      rw [FileTree.read, htext]
    · exact Document.parse_pretty (d := d) hextension hdocument (hfits d List.mem_cons_self)
  exact Generation.answer_load (eq_ok_of_toOption hpaths) (.cons hread .nil)

/-- The files that are left when the units of the document are written. -/
def shapesWritten (types : List TypeDecl) : FileTree :=
  ((shapes types).writeUnits (shapesTree types)).toOption.getD {}

theorem writeUnits_shapes (types : List TypeDecl)
    (h : ((shapes types).writeUnits (shapesTree types)).toOption.isSome) :
    (shapes types).writeUnits (shapesTree types) = .ok (shapesWritten types) := by
  obtain ⟨t', ht'⟩ := Option.isSome_iff_exists.1 h
  rw [shapesWritten, ht']
  exact eq_ok_of_toOption ht'

namespace Commands

def pair : List TypeDecl :=
  [.marked "Shape" [] [{ name := "A" }], .marked "Dot" [] [{ name := "B" }, { name := "C" }]]

theorem dryRun_shows_pair :
    ∃ dry real,
      (fulfil [] ⟨none, .generate true⟩ : StateM FileTree _).run (shapesTree pair) =
          (dry, shapesTree pair) ∧
        (fulfil [] ⟨none, .generate false⟩ : StateM FileTree _).run (shapesTree pair) =
          (real, shapesWritten pair) ∧
        dry = .done true (shown ((shapes pair).inMemory true).2) [] ∧
        ((shapes pair).inMemory true).2.map (·.1) = ["out/Dot.g.cs", "out/Shape.g.cs"] ∧
        ∀ x ∈ ((shapes pair).inMemory true).2, (shapesWritten pair).textAt? x.1 = some x.2 := by
  have hsettings : ((shapesTree pair).answer (Settings.load none [])).toOption = some shapesSettings := by
    decide +kernel
  have hload : (shapesTree pair).answer (Generation.load shapesSettings) = .ok (shapes pair) := by
    refine answer_load_shapesTree ?_ (by decide +kernel) (by decide +kernel) (by decide +kernel)
    simp [pair, isStorable_marked, isStorable_named]
  have hnone : (shapes pair).extraction.failures.isEmpty := by decide +kernel
  have hplaces : (shapes pair).PlacesApart (shapesWritten pair) := by decide +kernel
  obtain ⟨dry, real, hdry, hreal, hagree, hleaves, -⟩ := dryRun_shows_files
    (eq_ok_of_toOption hsettings) rfl hload (writeUnits_shapes pair (by decide +kernel)) hplaces
  exact ⟨dry, real, hdry, hreal, (hagree.succeed (List.isEmpty_iff.1 hnone)).1, by decide +kernel,
    hleaves.left⟩

/-- A union, and one that names a case twice. -/
def mixed : List TypeDecl :=
  [.marked "Shape" [] [{ name := "A" }], .marked "Dot" [] [{ name := "B" }, { name := "B" }]]

/-- The run has written the unit of the first union, and the dry run does not show it. -/
theorem dryRun_hides_mixed :
    (shapesTree mixed).answer (Settings.load none []) = .ok shapesSettings ∧
      shapesSettings.inMemory = false ∧
      (shapesTree mixed).answer (Generation.load shapesSettings) = .ok (shapes mixed) ∧
      (shapes mixed).writeUnits (shapesTree mixed) = .ok (shapesWritten mixed) ∧
      (shapesTree mixed).textAt? "out/Shape.g.cs" = none ∧
      ∃ failure text,
        (fulfil [] ⟨none, .generate true⟩ : StateM FileTree _).run (shapesTree mixed) =
            (.failed failure, shapesTree mixed) ∧
          (fulfil [] ⟨none, .generate false⟩ : StateM FileTree _).run (shapesTree mixed) =
            (.failed failure, shapesWritten mixed) ∧
          (shapesWritten mixed).textAt? "out/Shape.g.cs" = some text ∧
          (Outcome.failed failure).output ≠ printed "out/Shape.g.cs" text := by
  have hsettings : (shapesTree mixed).answer (Settings.load none []) = .ok shapesSettings :=
    eq_ok_of_toOption (by decide +kernel)
  have hload : (shapesTree mixed).answer (Generation.load shapesSettings) = .ok (shapes mixed) := by
    refine answer_load_shapesTree ?_ (by decide +kernel) (by decide +kernel) (by decide +kernel)
    simp [mixed, isStorable_marked, isStorable_named]
  have hwrite := writeUnits_shapes mixed (by decide +kernel)
  have hanswer : ((shapes mixed).inMemory true).1.isOk = false := by decide +kernel
  have htext : ((shapesWritten mixed).textAt? "out/Shape.g.cs").isSome := by decide +kernel
  obtain ⟨text, htext⟩ := Option.isSome_iff_exists.1 htext
  cases hfailure : ((shapes mixed).inMemory true).1 with
  | ok written =>
    rw [hfailure] at hanswer
    cases hanswer
  | error failure =>
    refine ⟨hsettings, rfl, hload, hwrite, by decide +kernel, failure, text, ?_, ?_, htext,
      (printed_ne_empty _ _).symm⟩
    · rw [run_fulfil_dry hsettings hload, run_generate_dry, Generation.inMemory_dry, hfailure]
      rfl
    · rw [run_fulfil_write hsettings hload, run_generate_write rfl hwrite, hfailure]
      rfl

end Commands
end CaseUnion
