/-
# Tables that are filled line by line

What a document of plain tables comes to: assignments fill the table that the last header opened
(`foldlM_assigns`), and each doubled header adds one more table to its list
(`foldlM_elements`).  Where the open table stands is said by the function from its entries to the
table of the document (`Opens`).
-/
import Mathlib.Tactic.Common
import SmartLock.Proofs.Toml.Lines

namespace SmartLock.Toml

namespace Entries

/-! ## Entries in their places -/

/-- No entry has a given name. -/
def Lacks (entries : Entries) (name : String) : Prop := ∀ entry ∈ entries, entry.1 ≠ name

/-- What is not there is not found. -/
theorem Lacks.get?_eq {entries : Entries} {name : String} (h : entries.Lacks name) :
    entries.get? name = none := by
  rw [get?, List.lookup_eq_none_iff]
  intro entry hentry
  simpa using (h entry hentry).symm

/-- An entry that comes last is found if no entry before has its name. -/
theorem Lacks.get?_push {entries : Entries} {name : String} (h : entries.Lacks name) (v : Value) :
    (entries ++ [(name, v)]).get? name = some v := by
  rw [get?, List.lookup_append, show entries.lookup name = none from h.get?_eq]
  simp

/-- Only the last entry changes. -/
theorem Lacks.set_push {entries : Entries} {name : String} (h : entries.Lacks name)
    (v new : Value) : (entries ++ [(name, v)]).set name new = entries ++ [(name, new)] := by
  have hsame : entries.map (fun entry => if entry.1 = name then (name, new) else entry) =
      entries := by
    conv_rhs => rw [← List.map_id entries]
    exact List.map_congr_left fun entry hentry => if_neg (h entry hentry)
  rw [set, List.map_append, hsame]
  simp

/-! ## The open table -/

/-- The names `path` lead to a table that is open in a document: `root` gives the table of the
document for the entries of the open one. -/
def Opens (path : List String) (root : Entries → Entries) : Prop :=
  ∀ (change : Origin → Entries → Option Entries) (inner : Entries),
    descend false change path .header (root inner) = (change .header inner).map root

/-- At the start the table of the document is open. -/
theorem opens_nil : Opens [] id := by
  intro change inner
  rw [Option.map_id_fun, id, id]
  rfl

/-- A table that was opened by its header. -/
theorem opens_table {before : Entries} {name : String} (h : before.Lacks name) :
    Opens [name] fun inner => before ++ [(name, .table .header inner)] := by
  intro change inner
  rw [descend.eq_def]
  dsimp only
  rw [h.get?_push]
  dsimp only
  rw [if_neg (by decide), descend.eq_def]
  exact congrArg (Option.map · _) (funext fun inner => h.set_push _ _)

/-- The last table of a list. -/
theorem opens_last {before : Entries} {name : String} (h : before.Lacks name)
    (done : List Entries) :
    Opens [name] fun inner => before ++ [(name, .tables (done ++ [inner]))] := by
  intro change inner
  rw [descend.eq_def]
  dsimp only
  rw [h.get?_push]
  dsimp only
  rw [List.getLast?_concat, List.dropLast_concat]
  dsimp only
  rw [descend.eq_def]
  exact congrArg (Option.map · _) (funext fun inner => h.set_push _ _)

end Entries

open Entries (Lacks Opens)

/-! ## Lines -/

/-- The lines that assign entries. -/
def assigns (entries : Entries) : List Line :=
  entries.map fun entry => .assign (.plain entry.1) entry.2

/-- An assignment adds an entry to the open table. -/
theorem add_assign {path : List String} {root : Entries → Entries} (hroot : Opens path root)
    {inner : Entries} {name : String} (h : inner.Lacks name) (v : Value) :
    Draft.add ⟨root inner, path⟩ (.assign (.plain name) v) =
      some ⟨root (inner ++ [(name, v)]), path⟩ := by
  have hassign : Entries.assign (.plain name) v .header inner = some (inner ++ [(name, v)]) := by
    rw [Entries.assign, Key.plain, Entries.descend, Entries.add, h.get?_eq]
    rfl
  rw [Draft.add, hroot, hassign]
  rfl

/-- Assignments of different names fill the open table. -/
theorem foldlM_assigns {path : List String} {root : Entries → Entries} (hroot : Opens path root)
    (entries : Entries) {inner : Entries} (hfresh : ∀ entry ∈ entries, inner.Lacks entry.1)
    (hnodup : (entries.map Prod.fst).Nodup) :
    (assigns entries).foldlM Draft.add ⟨root inner, path⟩ =
      some ⟨root (inner ++ entries), path⟩ := by
  induction entries generalizing inner with
  | nil => rw [List.append_nil]; rfl
  | cons entry entries ih =>
      obtain ⟨hnot, hnodup⟩ := List.nodup_cons.mp hnodup
      have hmore : ∀ later ∈ entries, Lacks (inner ++ [entry]) later.1 := by
        intro later hlater other hother
        rcases List.mem_append.mp hother with hinner | hlast
        · exact hfresh later (List.mem_cons_of_mem _ hlater) other hinner
        · rw [List.mem_singleton.mp hlast]
          rintro heq
          exact hnot (heq ▸ List.mem_map_of_mem hlater)
      have hfirst := add_assign hroot (hfresh entry List.mem_cons_self) entry.2
      have hrest := ih hmore hnodup
      rw [assigns, List.map_cons, List.foldlM_cons, hfirst, Option.bind_eq_bind, Option.bind_some,
        ← assigns, hrest, List.append_assoc, List.singleton_append]

/-- A header opens a table that is not there. -/
theorem add_openTable {root : Entries} {name : String} (h : root.Lacks name)
    (path : List String) :
    Draft.add ⟨root, path⟩ (.openTable (.plain name)) =
      some ⟨root ++ [(name, .table .header [])], [name]⟩ := by
  have hopen : Entries.openTable name .header root =
      some (root ++ [(name, .table .header [])]) := by
    rw [Entries.openTable, h.get?_eq]
    rfl
  rw [Draft.add]
  dsimp only [Key.plain]
  rw [Entries.descend, hopen]
  rfl

/-- The lines of a list of tables. -/
def elements (name : String) (tables : List Entries) : List Line :=
  tables.flatMap fun entries => .openElement (.plain name) :: assigns entries

/-- The table of a document with a list of tables at its end; there is no such entry while the list
is empty. -/
def withElements (before : Entries) (name : String) (tables : List Entries) : Entries :=
  if tables.isEmpty then before else before ++ [(name, .tables tables)]

/-- A doubled header adds an empty table. -/
theorem add_openElement {before : Entries} {name : String} (h : before.Lacks name)
    (done : List Entries) (path : List String) :
    Draft.add ⟨withElements before name done, path⟩ (.openElement (.plain name)) =
      some ⟨before ++ [(name, .tables (done ++ [[]]))], [name]⟩ := by
  have hopen : Entries.openElement name .header (withElements before name done) =
      some (before ++ [(name, .tables (done ++ [[]]))]) := by
    cases done with
    | nil =>
        rw [withElements, List.isEmpty_nil, if_pos rfl, Entries.openElement, h.get?_eq]
        rfl
    | cons first done =>
        rw [withElements, List.isEmpty_cons, if_neg Bool.false_ne_true, Entries.openElement,
          h.get?_push]
        dsimp only
        rw [h.set_push]
  rw [Draft.add]
  dsimp only [Key.plain]
  rw [Entries.descend, hopen]
  rfl

/-- The tables of a list are filled one after the other. -/
theorem foldlM_elements {before : Entries} {name : String} (h : before.Lacks name)
    (tables : List Entries) (hnodup : ∀ entries ∈ tables, (entries.map Prod.fst).Nodup)
    (done : List Entries) (path : List String) :
    ∃ last, (elements name tables).foldlM Draft.add ⟨withElements before name done, path⟩ =
      some ⟨withElements before name (done ++ tables), last⟩ := by
  induction tables generalizing done path with
  | nil => exact ⟨path, by rw [List.append_nil]; rfl⟩
  | cons entries tables ih =>
      obtain ⟨last, hlast⟩ := ih (fun e he => hnodup e (List.mem_cons_of_mem _ he))
        (done ++ [entries]) [name]
      have hfresh : ∀ entry ∈ entries, Lacks [] entry.1 := fun _ _ _ hmem =>
        absurd hmem List.not_mem_nil
      have hfill := foldlM_assigns (Entries.opens_last h done) entries hfresh
        (hnodup entries List.mem_cons_self)
      have hmore : before ++ [(name, .tables (done ++ [entries]))] =
          withElements before name (done ++ [entries]) := by
        simp [withElements]
      refine ⟨last, ?_⟩
      rw [elements, List.flatMap_cons, List.cons_append, List.foldlM_cons, add_openElement h,
        Option.bind_eq_bind, Option.bind_some, List.foldlM_append, hfill, Option.bind_eq_bind,
        Option.bind_some, List.nil_append, hmore, ← elements, hlast, List.append_assoc,
        List.singleton_append]

end SmartLock.Toml
