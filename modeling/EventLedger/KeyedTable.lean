import Mathlib.Data.List.Basic
import Mathlib.Data.List.Nodup

/-!
# Tables with a primary key

A table holds its rows in insertion order and carries the proof that no two of
them share a key.  `insert` refuses a row whose key is taken, as a primary key
constraint does, so tables only ever grow (`Grows`) and a row once readable by
its key stays readable for good.

Nothing here is about events or transactions: rows and keys are of any types, with
decidable equality of keys.  Both databases are instances, and so are the tables of
`TableService`, where handlers look rows up and add rows one operation at a time.
-/
namespace KeyedTable

/-- Rows with pairwise different keys. -/
structure Table {ρ κ : Type} (key : ρ → κ) where
  rows : List ρ
  nodup : (rows.map key).Nodup

namespace Table

variable {ρ κ : Type} {key : ρ → κ}

/-- The table without rows. -/
def empty : Table key := ⟨[], List.nodup_nil⟩

/-- Two rows of one table with one key are one row. -/
theorem row_unique {t : Table key} {r r' : ρ} (h : r ∈ t.rows) (h' : r' ∈ t.rows)
    (hkey : key r = key r') : r = r' :=
  List.inj_on_of_nodup_map t.nodup h h' hkey

/-- Through a view that keeps the key, no two rows look the same. -/
theorem nodup_view {β : Type} (view : ρ → β) (viewKey : β → κ)
    (hview : ∀ r, viewKey (view r) = key r) (t : Table key) : (t.rows.map view).Nodup := by
  refine List.Nodup.of_map viewKey ?_
  rw [List.map_map, show viewKey ∘ view = key from funext hview]
  exact t.nodup

/-- Two tables with the same rows, seen through a view that keeps the key, have them in some
order. -/
theorem perm_of_same_view {β : Type} (view : ρ → β) (viewKey : β → κ)
    (hview : ∀ r, viewKey (view r) = key r) {t t' : Table key}
    (h : ∀ b, b ∈ t.rows.map view ↔ b ∈ t'.rows.map view) :
    (t.rows.map view).Perm (t'.rows.map view) :=
  (List.perm_ext_iff_of_nodup (nodup_view view viewKey hview t)
    (nodup_view view viewKey hview t')).mpr h

variable [DecidableEq κ]

/-- The row stored under a key. -/
def get (t : Table key) (k : κ) : Option ρ := t.rows.find? (key · = k)

/-- Append a row, unless its key is taken. -/
def insert (t : Table key) (r : ρ) : Option (Table key) :=
  if h : key r ∈ t.rows.map key then none
  else some ⟨t.rows ++ [r], by
    rw [List.map_append, List.map_singleton, List.nodup_append_comm]
    exact List.nodup_cons.mpr ⟨h, t.nodup⟩⟩

/-- Every row readable in `t` reads the same in `t'`. -/
def Grows (t t' : Table key) : Prop := ∀ k r, t.get k = some r → t'.get k = some r

theorem Grows.refl (t : Table key) : t.Grows t := fun _ _ h => h

theorem Grows.trans {t t' t'' : Table key} (h : t.Grows t') (h' : t'.Grows t'') : t.Grows t'' :=
  fun k r hr => h' k r (h k r hr)

theorem key_of_get {t : Table key} {k : κ} {r : ρ} (h : t.get k = some r) : key r = k := by
  simpa using List.find?_some h

theorem mem_of_get {t : Table key} {k : κ} {r : ρ} (h : t.get k = some r) : r ∈ t.rows :=
  List.mem_of_find?_eq_some h

/-- Every row is found under its own key. -/
theorem get_of_mem {t : Table key} {r : ρ} (h : r ∈ t.rows) : t.get (key r) = some r := by
  cases hget : t.get (key r) with
  | none =>
    have hne := List.find?_eq_none.mp hget r h
    simp at hne
  | some r' =>
    exact congrArg some (row_unique (mem_of_get hget) h (key_of_get hget))

/-- A grown table has the rows it had. -/
theorem Grows.mem {t t' : Table key} (h : t.Grows t') {r : ρ} (hr : r ∈ t.rows) : r ∈ t'.rows :=
  mem_of_get (h _ _ (get_of_mem hr))

theorem get_eq_none_iff {t : Table key} {k : κ} : t.get k = none ↔ k ∉ t.rows.map key := by
  simp [get, List.find?_eq_none]

/-- The keys a table holds are those of its rows. -/
theorem exists_get_iff {t : Table key} {k : κ} :
    (∃ r, t.get k = some r) ↔ ∃ r ∈ t.rows, key r = k := by
  constructor
  · rintro ⟨r, hr⟩
    exact ⟨r, mem_of_get hr, key_of_get hr⟩
  · rintro ⟨r, hr, rfl⟩
    exact ⟨r, get_of_mem hr⟩

/-- **A copy.**  If every row of `copy` shows a row of `t`, through views that keep the key, then
`t` has the rows the copy shows, and those it has no row for. -/
theorem perm_copy {ρ' β : Type} {key' : ρ' → κ} (t : Table key) (copy : Table key') (view : ρ → β)
    (view' : ρ' → β) (viewKey : β → κ) (hview : ∀ r, viewKey (view r) = key r)
    (hview' : ∀ r, viewKey (view' r) = key' r)
    (hcopy : ∀ r' ∈ copy.rows, ∃ r ∈ t.rows, view r = view' r') :
    (t.rows.map view).Perm
      (copy.rows.map view' ++ (t.rows.filter fun r => (copy.get (key r)).isNone).map view) := by
  have hcopied : ((t.rows.filter fun r => !(copy.get (key r)).isNone).map view).Perm
      (copy.rows.map view') := by
    refine (List.perm_ext_iff_of_nodup ((nodup_view view viewKey hview t).sublist
      (List.filter_sublist.map view)) (nodup_view view' viewKey hview' copy)).mpr fun b => ?_
    rw [List.mem_map, List.mem_map]
    constructor
    · rintro ⟨r, hr, rfl⟩
      obtain ⟨hr, hsome⟩ := List.mem_filter.mp hr
      obtain ⟨r', hr'⟩ : ∃ r', copy.get (key r) = some r' :=
        Option.isSome_iff_exists.mp (by simpa using hsome)
      obtain ⟨r₀, hr₀, heq⟩ := hcopy r' (mem_of_get hr')
      have hkey : key r₀ = key r := by
        rw [← hview r₀, heq, hview', key_of_get hr']
      exact ⟨r', mem_of_get hr', by rw [← heq, row_unique hr₀ hr hkey]⟩
    · rintro ⟨r', hr', rfl⟩
      obtain ⟨r, hr, heq⟩ := hcopy r' hr'
      have hkey : key r = key' r' := by rw [← hview r, heq, hview']
      refine ⟨r, List.mem_filter.mpr ⟨hr, ?_⟩, heq⟩
      rw [hkey, get_of_mem hr']
      rfl
  have hsplit := List.filter_append_perm (fun r => !(copy.get (key r)).isNone) t.rows
  simp only [Bool.not_not] at hsplit
  have hmap := hsplit.symm.map view
  rw [List.map_append] at hmap
  exact hmap.trans (hcopied.append_right _)

/-! ## Inserting -/

/-- An insert is refused exactly when the key is readable. -/
theorem insert_eq_none_iff {t : Table key} {r : ρ} :
    t.insert r = none ↔ ∃ r', t.get (key r) = some r' := by
  rw [exists_get_iff]
  simp [insert]

theorem rows_insert {t t' : Table key} {r : ρ} (h : t.insert r = some t') :
    t'.rows = t.rows ++ [r] := by
  unfold insert at h
  split at h
  · cases h
  · cases h
    rfl

theorem get_none_of_insert {t t' : Table key} {r : ρ} (h : t.insert r = some t') :
    t.get (key r) = none := by
  cases hget : t.get (key r) with
  | none => rfl
  | some r' => simp [insert_eq_none_iff.mpr ⟨r', hget⟩] at h

/-- **Insert.**  The new row is readable under its key; every other key reads as before. -/
theorem get_insert {t t' : Table key} {r : ρ} (h : t.insert r = some t') (k : κ) :
    t'.get k = if k = key r then some r else t.get k := by
  have hrow : t'.get (key r) = some r := get_of_mem (by simp [rows_insert h])
  split
  · rename_i hk
    rw [hk, hrow]
  · rename_i hk
    have hk' : key r ≠ k := fun e => hk e.symm
    rw [get, get, rows_insert h, List.find?_append]
    simp [hk']

theorem get_insert_self {t t' : Table key} {r : ρ} (h : t.insert r = some t') :
    t'.get (key r) = some r := by
  rw [get_insert h, if_pos rfl]

theorem grows_insert {t t' : Table key} {r : ρ} (h : t.insert r = some t') : t.Grows t' := by
  intro k r' hr'
  rw [get_insert h]
  split
  · rename_i hk
    rw [hk, get_none_of_insert h] at hr'
    cases hr'
  · exact hr'

/-- A row of the grown table is old or the inserted one. -/
theorem mem_insert {t t' : Table key} {r r' : ρ} (h : t.insert r = some t') :
    r' ∈ t'.rows ↔ r' ∈ t.rows ∨ r' = r := by
  simp [rows_insert h]

end Table

end KeyedTable
