import CaseUnion.Document.Fields
import CaseUnion.Proofs.JsonText

/-!
# Fields that are stored

A record is written as a table of some of its fields, in order. Such a table is read as the same
fields (`fields_table`), and each field is read back by its own lemma: one that is always written
(`required_of_lookup`), one that may be absent (`optional_of_lookup`) and a list that is omitted
when it is empty (`withDefault_nil_of_lookup`). In the other direction a field that was read comes
from data that its reader accepts. Exact data is written of exact parts, and its types are decided
already (`asTyped_of_isExact`).
-/

namespace CaseUnion

variable {α : Type} {read : Datum → Except Fault α} {write : α → Datum} {name : String}

theorem ok_bind {ε α β : Type} (a : α) (f : α → Except ε β) : (Except.ok a >>= f) = f a := rfl

theorem bind_eq_ok_iff {ε α β : Type} {x : Except ε α} {f : α → Except ε β} {b : β} :
    (x >>= f) = .ok b ↔ ∃ a, x = .ok a ∧ f a = .ok b := by
  cases x with
  | error e => simp [bind, Except.bind]
  | ok a => simp [bind, Except.bind]

/-- Elements that are read each for itself. -/
theorem mapM_eq_ok {β : Type} {read : β → Except Fault α} {write : α → β} {items : List α}
    (h : ∀ v ∈ items, read (write v) = .ok v) :
    (items.map write).mapM read = .ok items := by
  induction items with
  | nil => rfl
  | cons v items ih =>
    obtain ⟨hv, hitems⟩ := List.forall_mem_cons.1 h
    rw [List.map_cons, List.mapM_cons, hv, ok_bind, ih hitems]
    rfl

theorem exists_of_mapM {β : Type} {f : α → Except Fault β} {items : List α} {values : List β}
    (h : items.mapM f = .ok values) {v : β} (hv : v ∈ values) : ∃ a ∈ items, f a = .ok v := by
  induction items generalizing values with
  | nil =>
    cases h
    cases hv
  | cons a items ih =>
    rw [List.mapM_cons] at h
    obtain ⟨first, hfirst, h⟩ := bind_eq_ok_iff.1 h
    obtain ⟨others, hothers, h⟩ := bind_eq_ok_iff.1 h
    cases h
    rcases List.mem_cons.1 hv with rfl | hv
    · exact ⟨a, List.mem_cons_self, hfirst⟩
    · obtain ⟨b, hb, hfb⟩ := ih hothers hv
      exact ⟨b, List.mem_cons_of_mem a hb, hfb⟩

namespace Datum

/-! ### Tables -/

theorem repeatedName?_of_nodup {known : List String} {entries : Fields}
    (h : (entries.map (·.1)).Nodup) : repeatedName? known entries = none := by
  induction entries with
  | nil => rfl
  | cons entry rest ih =>
    obtain ⟨name, value⟩ := entry
    rw [List.map_cons, List.nodup_cons] at h
    have hfirst : rest.any (·.1 == name) = false := by
      refine List.any_eq_false.2 fun e he hname => h.1 ?_
      exact List.mem_map.2 ⟨e, he, by simpa using hname⟩
    rw [repeatedName?, hfirst, Bool.and_false]
    exact ih h.2

/-- Some of the known fields, each once, are the fields of their table. -/
theorem fields_table {c : Conventions} {known : List String} {entries : Fields}
    (h : (entries.map (·.1)).Sublist known) (hknown : known.Nodup) :
    fields c known (.table entries) = .ok entries := by
  simp only [fields, asTable, ok_bind, fields.distinct, repeatedName?_of_nodup (h.nodup hknown)]

theorem names_optionalEntry (o : Option α) :
    ((optionalEntry name write o).map (·.1)).Sublist [name] := by
  cases o <;> simp [optionalEntry]

theorem names_nonEmptyEntry (items : List α) :
    ((nonEmptyEntry name write items).map (·.1)).Sublist [name] := by
  cases items <;> simp [nonEmptyEntry]

theorem lookup_entry (name key : String) (d : Datum) :
    [(name, d)].lookup key = if key == name then some d else none := by
  rw [List.lookup_cons]
  cases key == name <;> rfl

@[simp]
theorem lookup_optionalEntry (o : Option α) (key : String) :
    (optionalEntry name write o).lookup key = if key == name then o.map write else none := by
  cases o <;> simp [optionalEntry, lookup_entry]

@[simp]
theorem lookup_nonEmptyEntry (items : List α) (key : String) :
    (nonEmptyEntry name write items).lookup key =
      if key == name then (if items = [] then none else some (.list (items.map write)))
      else none := by
  cases items <;> simp [nonEmptyEntry, lookup_entry]

theorem asListOf_map {items : List α} (h : ∀ v ∈ items, read (write v) = .ok v) :
    asListOf read (.list (items.map write)) = .ok items := mapM_eq_ok h

theorem exists_of_asListOf {d : Datum} {values : List α} (h : asListOf read d = .ok values) {v : α}
    (hv : v ∈ values) : ∃ item, read item = .ok v := by
  obtain ⟨items, -, h⟩ := bind_eq_ok_iff.1 h
  obtain ⟨item, -, hitem⟩ := exists_of_mapM h hv
  exact ⟨item, hitem⟩

end Datum

namespace Fields

variable {f : Fields}

theorem required_of_lookup {d : Datum} {v : α} (hlookup : f.lookup name = some d)
    (h : read d = .ok v) : f.required name read = .ok v := by
  rw [required, hlookup]
  exact h

theorem withDefault_of_lookup {d : Datum} {v default : α} (hlookup : f.lookup name = some d)
    (h : read d = .ok v) : f.withDefault name default read = .ok v := by
  rw [withDefault, hlookup]
  exact h

theorem optional_of_lookup {o : Option α} (write : α → Datum)
    (hlookup : f.lookup name = o.map write) (hnull : ∀ v, (write v).isNull = false)
    (h : ∀ v ∈ o, read (write v) = .ok v) : f.optional name read = .ok o := by
  rw [optional, hlookup]
  cases o with
  | none => rfl
  | some v =>
    simp only [Option.map_some, hnull, h v rfl]
    rfl

theorem withDefault_nil_of_lookup {items : List α} (write : α → Datum)
    (hlookup : f.lookup name = if items = [] then none else some (.list (items.map write)))
    (h : ∀ v ∈ items, read (write v) = .ok v) :
    f.withDefault name [] (Datum.asListOf read) = .ok items := by
  rw [withDefault, hlookup]
  cases items with
  | nil => rfl
  | cons v items => exact Datum.asListOf_map h

theorem exists_of_required {v : α} (h : f.required name read = .ok v) : ∃ d, read d = .ok v := by
  rw [required] at h
  split at h
  · exact ⟨_, h⟩
  · cases h

theorem exists_of_withDefault {v default : α} (h : f.withDefault name default read = .ok v) :
    v = default ∨ ∃ d, read d = .ok v := by
  rw [withDefault] at h
  split at h
  · exact .inr ⟨_, h⟩
  · cases h
    exact .inl rfl

theorem exists_of_optional {o : Option α} (h : f.optional name read = .ok o) {v : α}
    (hv : v ∈ o) : ∃ d, read d = .ok v := by
  obtain rfl : o = some v := hv
  rw [optional] at h
  split at h
  · rename_i d _
    split at h
    · cases h
    · cases hd : read d with
      | error fault =>
        rw [hd] at h
        cases h
      | ok value =>
        rw [hd] at h
        cases h
        exact ⟨d, hd⟩
  · cases h

theorem exists_of_withDefault_nil {values : List α}
    (h : f.withDefault name [] (Datum.asListOf read) = .ok values) {v : α} (hv : v ∈ values) :
    ∃ d, read d = .ok v := by
  rcases exists_of_withDefault h with rfl | ⟨d, hd⟩
  · cases hv
  · exact Datum.exists_of_asListOf hd hv

end Fields

namespace Datum

/-! ### Exact data -/

theorem IsExact.table_append {f g : Fields} (hf : IsExact (.table f)) (hg : IsExact (.table g)) :
    IsExact (.table (f ++ g)) := by
  cases hf with
  | table hf =>
    cases hg with
    | table hg => exact .table (List.forall_mem_append.2 ⟨hf, hg⟩)

theorem IsExact.table_cons {d : Datum} {f : Fields} (hd : d.IsExact)
    (hf : IsExact (.table f)) : IsExact (.table ((name, d) :: f)) := by
  cases hf with
  | table hf => exact .table (List.forall_mem_cons.2 ⟨hd, hf⟩)

theorem IsExact.list_map {items : List α} (h : ∀ v ∈ items, (write v).IsExact) :
    IsExact (.list (items.map write)) :=
  .list (List.forall_mem_map.2 h)

theorem isExact_optionalEntry {o : Option α} (h : ∀ v ∈ o, (write v).IsExact) :
    IsExact (.table (optionalEntry name write o)) := by
  cases o with
  | none => exact .table nofun
  | some v => exact .table_cons (h v rfl) (.table nofun)

theorem isExact_nonEmptyEntry {items : List α} (h : ∀ v ∈ items, (write v).IsExact) :
    IsExact (.table (nonEmptyEntry name write items)) := by
  cases items with
  | nil => exact .table nofun
  | cons v items => exact .table_cons (.list_map h) (.table nofun)

theorem typedItems?_eq_some {items : List Datum} (h : ∀ d ∈ items, d.typed? = some d) :
    typedItems? items = some items := by
  induction items with
  | nil => rfl
  | cons d rest ih =>
    obtain ⟨hd, hrest⟩ := List.forall_mem_cons.1 h
    simp [typedItems?, hd, ih hrest]

theorem typedEntries?_eq_some {entries : Fields} (h : ∀ e ∈ entries, e.2.typed? = some e.2) :
    typedEntries? entries = some entries := by
  induction entries with
  | nil => rfl
  | cons e rest ih =>
    obtain ⟨he, hrest⟩ := List.forall_mem_cons.1 h
    simp [typedEntries?, he, ih hrest]

/-- The types of exact data are decided already. -/
theorem typed?_of_isExact {d : Datum} (h : d.IsExact) : d.typed? = some d := by
  induction h with
  | null => rfl
  | bool value => rfl
  | int h => exact if_pos h
  | text value => rfl
  | list _ ih => rw [typed?, typedItems?_eq_some ih, Option.map_some]
  | table _ ih => rw [typed?, typedEntries?_eq_some ih, Option.map_some]

end Datum

/-- Data that does not nest too deep to be held while its use is not known. -/
def Conventions.Holds (c : Conventions) (d : Datum) : Prop :=
  c.isTyped ∨ c.nestingLimit.all (d.depth ≤ ·)

namespace Datum

variable {c : Conventions}

theorem asTyped_of_isExact {d : Datum} (h : d.IsExact) (hheld : c.Holds d) :
    d.asTyped c = .ok d := by
  rw [asTyped]
  split
  · rfl
  · rename_i htyped
    rw [typed?_of_isExact h]
    exact if_pos (hheld.resolve_left htyped)

/-! ### Depth -/

theorem depth_le_of_mem_list {items : List Datum} {d : Datum} (h : d ∈ items) :
    d.depth + 1 ≤ (Datum.list items).depth := by
  rw [depth]
  refine Nat.succ_le_succ ?_
  induction items with
  | nil => cases h
  | cons first rest ih =>
    rw [depthOfItems]
    rcases List.mem_cons.1 h with rfl | h
    · exact Nat.le_max_left _ _
    · exact Nat.le_trans (ih h) (Nat.le_max_right _ _)

theorem depth_le_of_mem_table {entries : Fields} {e : String × Datum} (h : e ∈ entries) :
    e.2.depth + 1 ≤ (Datum.table entries).depth := by
  rw [depth]
  refine Nat.succ_le_succ ?_
  induction entries with
  | nil => cases h
  | cons first rest ih =>
    rw [depthOfEntries]
    rcases List.mem_cons.1 h with rfl | h
    · exact Nat.le_max_left _ _
    · exact Nat.le_trans (ih h) (Nat.le_max_right _ _)

theorem depth_le_of_mem_nonEmptyEntry {f : Fields} {items : List α}
    (h : ∀ e ∈ nonEmptyEntry name write items, e ∈ f) {v : α} (hv : v ∈ items) :
    (write v).depth + 2 ≤ (Datum.table f).depth := by
  cases items with
  | nil => cases hv
  | cons first rest =>
    have hlist := depth_le_of_mem_list (List.mem_map_of_mem (f := write) hv)
    have htable := depth_le_of_mem_table (h _ List.mem_cons_self)
    simp only at htable
    omega

end Datum
end CaseUnion
