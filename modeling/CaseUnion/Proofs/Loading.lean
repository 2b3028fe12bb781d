import Mathlib.Data.List.Forall2
import CaseUnion.Commands

/-!
# Loading

Settings and documents are loaded by requests that read. So loading leaves a tree as it is
(`Settings.readsOnly_load`, `Generation.readsOnly_load`), and it does not depend on whether units
are kept in memory (`Generation.load_congr`). A tree that holds the documents at the paths of the
settings gives a generation of these documents (`Generation.answer_load`).
-/

namespace CaseUnion

/-- What a computation answers that starts with a tree. -/
def FileTree.answer {α : Type} (t : FileTree) (x : StateM FileTree α) : α := (x.run t).1

theorem run_bind_of_run {α β : Type} {x : StateM FileTree α} {f : α → StateM FileTree β}
    {t t' : FileTree} {a : α} (h : x.run t = (a, t')) : (x >>= f).run t = (f a).run t' := by
  rw [StateT.run_bind, h]
  rfl

/-- A computation that leaves every tree as it is. -/
def ReadsOnly {α : Type} (x : StateM FileTree α) : Prop := ∀ t, (x.run t).2 = t

namespace ReadsOnly

variable {α β : Type} {x : StateM FileTree α}

protected theorem pure (a : α) : ReadsOnly (pure a) := fun _ => rfl

protected theorem bind {f : α → StateM FileTree β} (hx : ReadsOnly x) (hf : ∀ a, ReadsOnly (f a)) :
    ReadsOnly (x >>= f) := by
  intro t
  have hrun : x.run t = ((x.run t).1, t) := Prod.ext rfl (hx t)
  rw [run_bind_of_run hrun]
  exact hf _ t

/-- What follows starts with the tree that was read. -/
theorem run_bind (hx : ReadsOnly x) {f : α → StateM FileTree β} {t : FileTree} {a : α}
    (h : t.answer x = a) : (x >>= f).run t = (f a).run t :=
  run_bind_of_run (Prod.ext h (hx t))

protected theorem map (f : α → β) (hx : ReadsOnly x) : ReadsOnly (f <$> x) := hx

theorem isDirectory (path : String) : ReadsOnly (FileSystem.isDirectory path) := fun _ => rfl

theorem isFile (path : String) : ReadsOnly (FileSystem.isFile path) := fun _ => rfl

theorem children (path : String) : ReadsOnly (FileSystem.children path) := fun _ => rfl

theorem read (path : String) : ReadsOnly (FileSystem.read path) := fun _ => rfl

protected theorem ite {p : Prop} [Decidable p] {y : StateM FileTree α} (hx : ReadsOnly x)
    (hy : ReadsOnly y) : ReadsOnly (if p then x else y) := by
  split
  · exact hx
  · exact hy

protected theorem mapM {f : α → StateM FileTree β} (hf : ∀ a, ReadsOnly (f a)) (xs : List α) :
    ReadsOnly (xs.mapM f) := by
  induction xs with
  | nil => exact .pure []
  | cons a rest ih =>
    rw [List.mapM_cons]
    exact (hf a).bind fun _ => ih.bind fun _ => .pure _

protected theorem forIn {f : α → β → StateM FileTree (ForInStep β)} (hf : ∀ a b, ReadsOnly (f a b))
    (xs : List α) (b : β) : ReadsOnly (forIn xs b f) := by
  induction xs generalizing b with
  | nil => exact .pure b
  | cons a rest ih =>
    rw [List.forIn_cons]
    refine (hf a b).bind fun step => ?_
    cases step with
    | done b => exact .pure b
    | yield b => exact ih b

end ReadsOnly

namespace Glob

theorem readsOnly_pathExists (path : String) : ReadsOnly (pathExists path) := by
  rw [pathExists]
  exact (ReadsOnly.isDirectory path).bind fun _ => .ite (.pure _) (.isFile path)

theorem readsOnly_search (onlyDirectories : Bool) (limit : Nat) (components : List (List Token))
    (path : String) : ReadsOnly (search onlyDirectories limit components path) := by
  induction limit generalizing components path with
  | zero => exact .pure []
  | succ limit ih =>
    cases components with
    | nil =>
      rw [search]
      exact (ReadsOnly.isDirectory path).bind fun _ => .ite (.pure _) (.pure _)
    | cons component rest =>
      rw [search]
      split
      · -- a name is looked up
        have hfound (isThere : Bool) (next : String) :
            ReadsOnly (if isThere then search onlyDirectories limit rest next else pure []) :=
          .ite (ih rest next) (.pure [])
        exact .ite ((ReadsOnly.isDirectory path).bind fun _ => hfound _ _)
          ((readsOnly_pathExists _).bind fun _ => hfound _ _)
      · -- every entry of the directory is compared
        refine (ReadsOnly.isDirectory path).bind fun _ => .ite ?_ (.pure [])
        refine (ReadsOnly.mapM (fun _ => ih rest _) _).bind fun dotted => ?_
        refine (ReadsOnly.children path).bind fun names => ?_
        refine (ReadsOnly.mapM (fun name => ?_) names).bind fun _ => .pure _
        refine .ite ?_ (.ite (ih rest _) (.pure []))
        refine (ReadsOnly.isDirectory _).bind fun _ => ?_
        -- whether or not anything is found deeper, the entry itself is compared then
        refine .ite ((ih _ _).bind fun deeper => ?_) ((ReadsOnly.pure _).bind fun deeper => ?_)
        all_goals
          split
          · exact .pure _
          · exact .ite ((ih _ _).bind fun _ => .pure _) (.pure _)

end Glob

namespace Settings

theorem readsOnly_findFile (file : String) : ReadsOnly (findFile file) := by
  rw [findFile]
  refine (ReadsOnly.isFile file).bind fun _ => .ite (.pure _) ?_
  refine (ReadsOnly.forIn (fun x _ => ?_) _ _).bind fun found => ?_
  · exact (ReadsOnly.isFile _).bind fun _ => .ite (.pure _) (.pure _)
  · dsimp only
    split
    · exact .pure _
    · exact .pure _

theorem readsOnly_readLayer (file : String) : ReadsOnly (readLayer file) := by
  rw [readLayer]
  refine (readsOnly_findFile file).bind fun found => ?_
  split
  · exact .pure _
  · refine (ReadsOnly.read _).bind fun text => ?_
    split
    · exact .pure _
    · exact .pure _

theorem readsOnly_load (directory : Option String) (environment : Environment) :
    ReadsOnly (load directory environment) := by
  rw [load]
  refine (readsOnly_readLayer _).bind fun layer => ?_
  split
  · exact .pure _
  · split
    · exact .pure _
    · exact .ite (.pure _) (.pure _)

end Settings

namespace SourcePatterns

theorem readsOnly_found (known patterns : List String) : ReadsOnly (found known patterns) := by
  induction patterns generalizing known with
  | nil => exact .pure _
  | cons pattern rest ih =>
    rw [found]
    split
    · exact .pure _
    · exact (Glob.readsOnly_search _ _ _ _).bind fun _ => ih _

theorem readsOnly_paths (p : SourcePatterns) : ReadsOnly p.paths := by
  rw [paths]
  refine (readsOnly_found [] p.includes).bind fun known => ?_
  split
  · exact .pure _
  · split
    · exact .pure _
    · exact .pure _

end SourcePatterns

namespace Generation

theorem readsOnly_readDocuments (paths : List String) : ReadsOnly (readDocuments paths) := by
  induction paths with
  | nil => exact .pure _
  | cons path rest ih =>
    rw [readDocuments]
    refine (ReadsOnly.read path).bind fun text => ?_
    split
    · exact .pure _
    · split
      · exact .pure _
      · exact ih.bind fun _ => .pure _

theorem readsOnly_load (s : Settings) : ReadsOnly (load s) := by
  rw [load]
  refine (SourcePatterns.readsOnly_paths _).bind fun paths => ?_
  split
  · exact .pure _
  · exact (readsOnly_readDocuments _).bind fun _ => .pure _

/-- The tree holds the text of a document at a path. -/
def Reads (t : FileTree) (path : String) (d : Document) : Prop :=
  ∃ text, t.read path = .ok text ∧ Document.parse path text = .ok d

theorem answer_readDocuments {t : FileTree} {paths : List String} {documents : List Document}
    (h : List.Forall₂ (Reads t) paths documents) :
    t.answer (readDocuments paths) = .ok documents := by
  induction h with
  | nil => rfl
  | cons hd _ ih =>
    obtain ⟨text, hread, hparse⟩ := hd
    rw [FileTree.answer, readDocuments, (ReadsOnly.read _).run_bind hread]
    dsimp only
    rw [hparse]
    dsimp only
    rw [(readsOnly_readDocuments _).run_bind ih]
    rfl

theorem answer_load {s : Settings} {t : FileTree} {paths : List String} {documents : List Document}
    (hpaths : t.answer s.sources.paths = .ok paths) (h : List.Forall₂ (Reads t) paths documents) :
    t.answer (load s) = .ok ⟨s, documents⟩ := by
  rw [FileTree.answer, load, (SourcePatterns.readsOnly_paths _).run_bind hpaths]
  dsimp only
  rw [(readsOnly_readDocuments _).run_bind (answer_readDocuments h)]
  rfl

theorem load_eq_map {s s' : Settings} (h : s'.sources = s.sources) :
    (load s' : StateM FileTree _) = (·.map fun g => ⟨s', g.documents⟩) <$> load s := by
  rw [load, load, h, map_bind]
  refine bind_congr fun paths => ?_
  cases paths with
  | error failure => rfl
  | ok paths =>
    simp only [map_bind]
    refine bind_congr fun documents => ?_
    cases documents <;> rfl

/-- Which documents are loaded depends on the sources alone. -/
theorem load_congr {s s' : Settings} (h : s'.sources = s.sources) (t : FileTree) :
    t.answer (load s') = (t.answer (load s)).map fun g => ⟨s', g.documents⟩ := by
  rw [load_eq_map h]
  rfl

theorem settings_of_load {s : Settings} {g : Generation} {t : FileTree}
    (h : t.answer (load s) = .ok g) : g.settings = s := by
  have hself := load_congr (Eq.refl s.sources) t
  rw [h] at hself
  exact congrArg Generation.settings (Except.ok.inj hself)

end Generation
end CaseUnion
