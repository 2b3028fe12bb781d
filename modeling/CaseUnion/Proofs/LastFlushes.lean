import Mathlib.Data.List.Induction
import CaseUnion.Proofs.CollectedContents

/-!
# The last flush of a path

What a file holds is told by the steps since it was opened (`Keeps`, `opened_run`), and what is
collected under a path by the last step that flushed an attached file there (`LastHandedOver`,
`get?_run_eq_some_iff`). So a write shows only when its file is flushed afterwards, and neither
writes to other files nor flushes of files that are not attached show at all
(`collected_shows_last_flush`).
-/

namespace CaseUnion.MemoryFiles

theorem concat_eq_append_cons_iff {β : Type} {xs front behind : List β} {x y : β} :
    xs ++ [y] = front ++ x :: behind ↔
      xs = front ∧ y = x ∧ behind = [] ∨ ∃ rest, xs = front ++ x :: rest ∧ behind = rest ++ [y] := by
  constructor
  · intro h
    rcases List.eq_nil_or_concat behind with rfl | ⟨rest, last, rfl⟩
    · obtain ⟨rfl, heq⟩ := List.append_inj' h rfl
      cases heq
      exact .inl ⟨rfl, rfl, rfl⟩
    · rw [List.concat_eq_append, ← List.cons_append, ← List.append_assoc] at h
      obtain ⟨rfl, heq⟩ := List.append_inj' h rfl
      cases heq
      exact .inr ⟨rest, rfl, List.concat_eq_append⟩
  · rintro (⟨rfl, rfl, rfl⟩ | ⟨rest, rfl, rfl⟩)
    · rfl
    · rw [List.append_assoc, List.cons_append]

variable {α : Type} [Inhabited α] [Append α]

/-! ### What a file holds -/

namespace Step

/-- The file as a step opens it. -/
def opened? : Step α → Option (MemoryFile α)
  | create path isAttached => some ⟨path, isAttached, default⟩
  | _ => none

def attaches (file : Nat) : Step α → Bool
  | attach other => other = file
  | _ => false

def chunk? (file : Nat) : Step α → Option α
  | write other chunk => if other = file then some chunk else none
  | _ => none

/-- What becomes of a file that is open already. -/
def on (file : Nat) (f : MemoryFile α) : Step α → MemoryFile α
  | attach other => if other = file then { f with isAttached := true } else f
  | write other chunk => if other = file then { f with data := f.data ++ chunk } else f
  | _ => f

end Step

def joined (chunks : List α) : α := chunks.foldl (· ++ ·) default

def since (path : String) (isAttached : Bool) (file : Nat) (steps : List (Step α)) : MemoryFile α :=
  ⟨path, isAttached || steps.any (Step.attaches file), joined (steps.filterMap (Step.chunk? file))⟩

/-- The steps open a file, as many others before it as its number says, and leave it so. -/
def Keeps (steps : List (Step α)) (file : Nat) (f : MemoryFile α) : Prop :=
  ∃ front path isAttached behind, steps = front ++ .create path isAttached :: behind ∧
    front.countP (·.opened?.isSome) = file ∧ f = since path isAttached file behind

variable {steps : List (Step α)} {s : Step α} {file : Nat} {f g : MemoryFile α}

theorem since_nil (path : String) (isAttached : Bool) (file : Nat) :
    since path isAttached file ([] : List (Step α)) = ⟨path, isAttached, default⟩ := by
  rw [since, List.any_nil, Bool.or_false]
  rfl

theorem since_concat (path : String) (isAttached : Bool) (file : Nat) (steps : List (Step α))
    (s : Step α) :
    since path isAttached file (steps ++ [s]) = s.on file (since path isAttached file steps) := by
  rw [since, List.any_append, List.filterMap_append, joined, List.foldl_append, ← joined,
    ← Bool.or_assoc, List.filterMap_cons, List.filterMap_nil, List.any_cons, List.any_nil]
  cases s with
  | create _ _ => simp [Step.attaches, Step.chunk?, Step.on, since]
  | attach other => by_cases h : other = file <;> simp [Step.attaches, Step.chunk?, Step.on, since, h]
  | write other _ => by_cases h : other = file <;> simp [Step.attaches, Step.chunk?, Step.on, since, h]
  | flush _ => simp [Step.attaches, Step.chunk?, Step.on, since]

theorem keeps_concat_iff : Keeps (steps ++ [s]) file f ↔
    (∃ g, Keeps steps file g ∧ s.on file g = f) ∨
      steps.countP (·.opened?.isSome) = file ∧ s.opened? = some f := by
  constructor
  · rintro ⟨front, path, isAttached, behind, hsplit, hnumber, rfl⟩
    rcases concat_eq_append_cons_iff.1 hsplit with ⟨rfl, rfl, rfl⟩ | ⟨rest, rfl, rfl⟩
    · exact .inr ⟨hnumber, congrArg some (since_nil path isAttached file).symm⟩
    · exact .inl ⟨_, ⟨front, path, isAttached, rest, rfl, hnumber, rfl⟩,
        (since_concat path isAttached file rest s).symm⟩
  · rintro (⟨g, ⟨front, path, isAttached, behind, hsplit, hnumber, rfl⟩, rfl⟩ | ⟨hnumber, hopened⟩)
    · refine ⟨front, path, isAttached, behind ++ [s], ?_, hnumber, ?_⟩
      · exact concat_eq_append_cons_iff.2 (.inr ⟨behind, hsplit, rfl⟩)
      · exact (since_concat path isAttached file behind s).symm
    · cases s with
      | create path isAttached =>
        cases hopened
        exact ⟨steps, path, isAttached, [], rfl, hnumber, (since_nil path isAttached file).symm⟩
      | _ => cases hopened

theorem run_concat (m : MemoryFiles α) (steps : List (Step α)) (s : Step α) :
    m.run (steps ++ [s]) = (m.run steps).step s := by
  rw [run, List.foldl_append]
  rfl

/-- A step changes the open files one by one and may open another one behind them. -/
theorem opened_step (m : MemoryFiles α) (s : Step α) :
    (m.step s).opened = m.opened.mapIdx (fun file f => s.on file f) ++ s.opened?.toList := by
  cases s with
  | create path isAttached =>
    refine congrArg (· ++ _) (List.ext_getElem? fun i => ?_)
    rw [List.getElem?_mapIdx]
    exact Option.map_id'.symm
  | attach other =>
    refine (List.ext_getElem? fun i => ?_).trans (List.append_nil _).symm
    rw [step, List.getElem?_modify, List.getElem?_mapIdx]
    rfl
  | write other chunk =>
    refine (List.ext_getElem? fun i => ?_).trans (List.append_nil _).symm
    rw [step, List.getElem?_modify, List.getElem?_mapIdx]
    rfl
  | flush other =>
    have hopened : (m.step (.flush other)).opened = m.opened := by
      rw [step]
      split
      · split <;> rfl
      · rfl
    refine (List.ext_getElem? fun i => ?_).trans (List.append_nil _).symm
    rw [hopened, List.getElem?_mapIdx]
    exact Option.map_id'.symm

theorem length_opened_run (steps : List (Step α)) :
    (run {} steps).opened.length = steps.countP (·.opened?.isSome) := by
  induction steps using List.reverseRecOn with
  | nil => rfl
  | append_singleton steps s ih =>
    rw [run_concat, opened_step, List.length_append, List.length_mapIdx, ih, List.countP_append,
      List.countP_singleton]
    cases s.opened? <;> rfl

theorem getElem?_append_toList_iff {β : Type} {xs : List β} {o : Option β} {i : Nat} {y : β} :
    (xs ++ o.toList)[i]? = some y ↔ xs[i]? = some y ∨ xs.length = i ∧ o = some y := by
  rw [List.getElem?_append]
  split
  · rename_i hlt
    exact (or_iff_left fun h => Nat.ne_of_gt hlt h.1).symm
  · rename_i hge
    rw [List.getElem?_eq_none (Nat.le_of_not_lt hge)]
    cases o with
    | none => simp
    | some x =>
      rw [Option.toList_some, List.getElem?_singleton]
      split
      · rename_i hzero
        have heq : xs.length = i := Nat.le_antisymm (Nat.le_of_not_lt hge) (Nat.le_of_sub_eq_zero hzero)
        simp [heq]
      · rename_i hpos
        have hne : xs.length ≠ i := fun heq => hpos (by rw [heq, Nat.sub_self])
        simp [hne]

/-- An open file holds what the steps have left it with. -/
theorem opened_run (steps : List (Step α)) (file : Nat) (f : MemoryFile α) :
    (run {} steps).opened[file]? = some f ↔ Keeps steps file f := by
  induction steps using List.reverseRecOn generalizing f with
  | nil =>
    refine iff_of_false nofun ?_
    rintro ⟨front, path, isAttached, behind, hsplit, -⟩
    exact List.append_ne_nil_of_right_ne_nil front (List.cons_ne_nil _ _) hsplit.symm
  | append_singleton steps s ih =>
    rw [keeps_concat_iff, run_concat, opened_step, getElem?_append_toList_iff, List.length_mapIdx,
      length_opened_run, List.getElem?_mapIdx, Option.map_eq_some_iff]
    simp only [ih]

theorem Keeps.unique (hf : Keeps steps file f) (hg : Keeps steps file g) : f = g :=
  Option.some.inj (((opened_run steps file f).2 hf).symm.trans ((opened_run steps file g).2 hg))

/-! ### What is collected -/

/-- The step flushes a file that is open and attached by then. -/
def HandsOver (before : List (Step α)) (s : Step α) (f : MemoryFile α) : Prop :=
  ∃ file, s = .flush file ∧ Keeps before file f ∧ f.isAttached

/-- A file is the last one that was handed over under a path, with what it held at that time. -/
def LastHandedOver (steps : List (Step α)) (path : String) (f : MemoryFile α) : Prop :=
  ∃ before s after, steps = before ++ s :: after ∧ HandsOver before s f ∧ Path.same path f.path ∧
    ∀ between later rest g, after = between ++ later :: rest →
      HandsOver (before ++ s :: between) later g → ¬ Path.same path g.path

theorem HandsOver.unique (hf : HandsOver steps s f) (hg : HandsOver steps s g) : f = g := by
  obtain ⟨file, rfl, hf, -⟩ := hf
  obtain ⟨_, heq, hg, -⟩ := hg
  cases heq
  exact hf.unique hg

theorem collected_of_handsOver (h : HandsOver steps s f) :
    (run {} (steps ++ [s])).collected = (run {} steps).collected.insert f.path f.data := by
  obtain ⟨file, rfl, hkeeps, hattached⟩ := h
  rw [run_concat, step, (opened_run steps file f).2 hkeeps]
  exact congrArg collected (if_pos hattached)

theorem collected_of_not_handsOver (h : ∀ f, ¬ HandsOver steps s f) :
    (run {} (steps ++ [s])).collected = (run {} steps).collected := by
  rw [run_concat]
  cases s with
  | flush file =>
    rw [step]
    split
    · rename_i f hopened
      split
      · rename_i hattached
        exact absurd ⟨file, rfl, (opened_run steps file f).1 hopened, hattached⟩ (h f)
      · rfl
    · rfl
  | _ => rfl

theorem lastHandedOver_concat_iff {path : String} : LastHandedOver (steps ++ [s]) path f ↔
    HandsOver steps s f ∧ Path.same path f.path ∨
      (∀ g, HandsOver steps s g → ¬ Path.same path g.path) ∧ LastHandedOver steps path f := by
  constructor
  · rintro ⟨before, own, after, hsplit, hown, hsame, hlast⟩
    rcases concat_eq_append_cons_iff.1 hsplit with ⟨rfl, rfl, rfl⟩ | ⟨rest, rfl, rfl⟩
    · exact .inl ⟨hown, hsame⟩
    · refine .inr ⟨fun g => hlast rest s [] g rfl, before, own, rest, rfl, hown, hsame, ?_⟩
      intro between later behind g hrest
      exact hlast between later (behind ++ [s]) g
        (concat_eq_append_cons_iff.2 (.inr ⟨behind, hrest, rfl⟩))
  · rintro (⟨hs, hsame⟩ | ⟨hs, before, own, after, rfl, hown, hsame, hlast⟩)
    · refine ⟨steps, s, [], rfl, hs, hsame, fun between later behind g hnil => ?_⟩
      exact absurd hnil.symm (List.append_ne_nil_of_right_ne_nil between (List.cons_ne_nil _ _))
    · refine ⟨before, own, after ++ [s], ?_, hown, hsame, ?_⟩
      · exact concat_eq_append_cons_iff.2 (.inr ⟨after, rfl, rfl⟩)
      · intro between later behind g hafter
        rcases concat_eq_append_cons_iff.1 hafter with ⟨rfl, rfl, rfl⟩ | ⟨rest, hsplit, rfl⟩
        · exact hs g
        · exact hlast between later rest g hsplit

theorem get?_concat_of_not_same {path : String}
    (h : ∀ f, HandsOver steps s f → ¬ Path.same path f.path) :
    (run {} (steps ++ [s])).collected.get? path = (run {} steps).collected.get? path := by
  by_cases hany : ∃ f, HandsOver steps s f
  · obtain ⟨f, hf⟩ := hany
    rw [collected_of_handsOver hf, Collected.get?_insert, if_neg (h f hf)]
  · rw [collected_of_not_handsOver (not_exists.1 hany)]

theorem get?_append_of_not_same {path : String} {later : List (Step α)}
    (h : ∀ before s after f, later = before ++ s :: after → HandsOver (steps ++ before) s f →
      ¬ Path.same path f.path) :
    (run {} (steps ++ later)).collected.get? path = (run {} steps).collected.get? path := by
  induction later using List.reverseRecOn with
  | nil => rw [List.append_nil]
  | append_singleton later s ih =>
    rw [← List.append_assoc, get?_concat_of_not_same fun f => h later s [] f rfl]
    refine ih fun before own after f hsplit => h before own (after ++ [s]) f ?_
    exact concat_eq_append_cons_iff.2 (.inr ⟨after, hsplit, rfl⟩)

/-- A path shows the file that was handed over last, with what it held at that time. -/
theorem get?_run_eq_some_iff (steps : List (Step α)) (path : String) (content : α) :
    (run {} steps).collected.get? path = some content ↔
      ∃ f, LastHandedOver steps path f ∧ f.data = content := by
  induction steps using List.reverseRecOn with
  | nil =>
    refine iff_of_false nofun ?_
    rintro ⟨f, ⟨before, s, after, hsplit, -⟩, -⟩
    exact List.append_ne_nil_of_right_ne_nil before (List.cons_ne_nil _ _) hsplit.symm
  | append_singleton steps s ih =>
    simp only [lastHandedOver_concat_iff]
    by_cases hs : ∃ f, HandsOver steps s f ∧ Path.same path f.path
    · obtain ⟨f, hf, hsame⟩ := hs
      rw [collected_of_handsOver hf, Collected.get?_insert, if_pos hsame, Option.some_inj]
      constructor
      · rintro rfl
        exact ⟨f, .inl ⟨hf, hsame⟩, rfl⟩
      · rintro ⟨g, ⟨hg, -⟩ | ⟨hnot, -⟩, rfl⟩
        · rw [hf.unique hg]
        · exact absurd hsame (hnot f hf)
    · have hnot : ∀ g, HandsOver steps s g → ¬ Path.same path g.path :=
        fun g hg hsame => hs ⟨g, hg, hsame⟩
      rw [get?_concat_of_not_same hnot, ih]
      refine exists_congr fun g => and_congr_left fun _ => ?_
      exact ⟨fun h => .inr ⟨hnot, h⟩, Or.rec (fun h => absurd h.2 (hnot g h.1)) And.right⟩

/-- Whatever is handed over to a path, something is handed over to it last. -/
theorem exists_lastHandedOver_iff {path : String} : (∃ f, LastHandedOver steps path f) ↔
    ∃ before s after f, steps = before ++ s :: after ∧ HandsOver before s f ∧
      Path.same path f.path := by
  constructor
  · rintro ⟨f, before, s, after, hsplit, hs, hsame, -⟩
    exact ⟨before, s, after, f, hsplit, hs, hsame⟩
  · rintro ⟨before, s, after, f, rfl, hs, hsame⟩
    induction after using List.reverseRecOn with
    | nil => exact ⟨f, lastHandedOver_concat_iff.2 (.inl ⟨hs, hsame⟩)⟩
    | append_singleton after last ih =>
      rw [← List.cons_append, ← List.append_assoc]
      by_cases hlast : ∃ g, HandsOver (before ++ s :: after) last g ∧ Path.same path g.path
      · obtain ⟨g, hg⟩ := hlast
        exact ⟨g, lastHandedOver_concat_iff.2 (.inl hg)⟩
      · obtain ⟨g, hg⟩ := ih
        refine ⟨g, lastHandedOver_concat_iff.2 (.inr ⟨fun k hk hsame => ?_, hg⟩)⟩
        exact hlast ⟨k, hk, hsame⟩

theorem sorted_run (steps : List (Step α)) : (run {} steps).collected.Sorted := by
  induction steps using List.reverseRecOn with
  | nil => exact List.Pairwise.nil
  | append_singleton steps s ih =>
    by_cases hs : ∃ f, HandsOver steps s f
    · obtain ⟨f, hf⟩ := hs
      rw [collected_of_handsOver hf]
      exact Collected.sorted_insert f.path f.data ih
    · rwa [collected_of_not_handsOver (not_exists.1 hs)]

/-- A path has an entry exactly if an attached file was flushed there, and the entry holds what was
written to the file of the last such flush, from its opening up to the flush. Steps that flush no
attached file to the path change nothing there. -/
theorem collected_shows_last_flush (steps : List (Step α)) (path : String) :
    ((∃ x ∈ (run {} steps).collected, Path.same path x.1) ↔
        ∃ before s after f, steps = before ++ s :: after ∧ HandsOver before s f ∧
          Path.same path f.path) ∧
      (∀ x ∈ (run {} steps).collected, Path.same path x.1 →
        ∃ f, LastHandedOver steps path f ∧ f.data = x.2) ∧
      (∀ content, (run {} steps).collected.get? path = some content ↔
        ∃ f, LastHandedOver steps path f ∧ f.data = content) ∧
      ∀ later : List (Step α),
        (∀ before s after f, later = before ++ s :: after → HandsOver (steps ++ before) s f →
          ¬ Path.same path f.path) →
        (run {} (steps ++ later)).collected.get? path = (run {} steps).collected.get? path := by
  have hentry : ∀ x ∈ (run {} steps).collected, Path.same path x.1 →
      (run {} steps).collected.get? path = some x.2 := by
    intro x hx hsame
    rw [← Collected.get?_of_mem (sorted_run steps) hx]
    exact Collected.get?_congr hsame
  refine ⟨?_, fun x hx hsame => (get?_run_eq_some_iff steps path x.2).1 (hentry x hx hsame),
    get?_run_eq_some_iff steps path, fun later => get?_append_of_not_same⟩
  rw [← exists_lastHandedOver_iff]
  constructor
  · rintro ⟨x, hx, hsame⟩
    obtain ⟨f, hf, -⟩ := (get?_run_eq_some_iff steps path x.2).1 (hentry x hx hsame)
    exact ⟨f, hf⟩
  · rintro ⟨f, hf⟩
    obtain ⟨x, hx, hsame, -⟩ :=
      Collected.exists_mem_of_get? ((get?_run_eq_some_iff steps path f.data).2 ⟨f, hf, rfl⟩)
    exact ⟨x, hx, hsame⟩

/-- Two files at one path, which is spelled differently. The second one is attached after its first
flush, and is written to after its last. -/
def contestedPath : List (Step String) :=
  [.create "out/a" true, .create "out//a" false, .write 0 "x", .flush 0, .write 1 "y", .flush 1,
    .write 1 "z", .attach 1, .flush 1, .write 1 "w"]

/-- The path shows what the second file held when it was flushed after it was attached, whatever is
written to the first one later. -/
theorem collected_shows_last_flush_contestedPath :
    ("out/a", "yz") ∈ (run {} contestedPath).collected ∧ Path.same "./out/a" "out/a" = false ∧
      Path.same "out/a/" "out/a" ∧ (∃ f, LastHandedOver contestedPath "out/a/" f ∧ f.data = "yz") ∧
      (run {} (contestedPath ++ [.write 0 "v", .write 1 "w"])).collected.get? "out/a/" = some "yz" := by
  obtain ⟨-, hcontent, hfind, hlater⟩ := collected_shows_last_flush contestedPath "out/a/"
  have hentry : ("out/a", "yz") ∈ (run {} contestedPath).collected := by decide +kernel
  have hsame : Path.same "out/a/" "out/a" := by decide +kernel
  have hlast := hcontent _ hentry hsame
  refine ⟨hentry, by decide +kernel, hsame, hlast, ?_⟩
  rw [hlater [.write 0 "v", .write 1 "w"] ?_]
  · exact (hfind "yz").2 hlast
  · rintro before s after f hsplit ⟨file, rfl, -⟩
    have hmem : Step.flush file ∈ [Step.write 0 "v", .write 1 "w"] := by
      rw [hsplit]
      exact List.mem_append_right _ List.mem_cons_self
    simp at hmem

end CaseUnion.MemoryFiles
