import Mathlib.Algebra.BigOperators.Group.List.Basic
import Mathlib.Data.List.Nodup

/-!
# Dictionaries that remember the order of insertion

A dictionary is a list of items with pairwise different keys.  Assigning to a key
replaces its value where it stands, and appends the item if the key is new, so
iteration goes in the order in which the keys came.

`add` is the accumulating assignment `d[k] = d.get(k, 0) + a`.  What it does to the
values of a kind of keys, taken together, is all a user of counters has to know
(`total_add`).
-/
namespace OrderedDict

variable {κ α : Type}

/-- Items with pairwise different keys. -/
structure Dict (κ α : Type) where
  items : List (κ × α)
  nodup : (items.map Prod.fst).Nodup
  deriving DecidableEq

namespace Dict

/-- The dictionary without items. -/
def empty : Dict κ α := ⟨[], List.nodup_nil⟩

/-- The keys, in order. -/
def keys (d : Dict κ α) : List κ := d.items.map Prod.fst

variable [DecidableEq κ]

/-- The value that stands first under a key. -/
def lookup (k : κ) (items : List (κ × α)) : Option α := (items.find? (·.1 = k)).map Prod.snd

/-- Replace the value under a key, or append the item. -/
def assign (k : κ) (v : α) : List (κ × α) → List (κ × α)
  | [] => [(k, v)]
  | item :: items => if item.1 = k then (k, v) :: items else item :: assign k v items

theorem lookup_cons (k : κ) (item : κ × α) (items : List (κ × α)) :
    lookup k (item :: items) = if item.1 = k then some item.2 else lookup k items := by
  simp only [lookup, List.find?_cons]
  split
  · rename_i h
    rw [if_pos (of_decide_eq_true h)]
    rfl
  · rename_i h
    rw [if_neg (of_decide_eq_false h)]

theorem lookup_eq_none {k : κ} {items : List (κ × α)} :
    lookup k items = none ↔ k ∉ items.map Prod.fst := by
  rw [lookup, Option.map_eq_none_iff, List.find?_eq_none]
  constructor
  · intro h hmem
    obtain ⟨item, hitem, hkey⟩ := List.mem_map.mp hmem
    exact h item hitem (decide_eq_true hkey)
  · intro h item hitem hkey
    exact h (List.mem_map.mpr ⟨item, hitem, of_decide_eq_true hkey⟩)

theorem lookup_assign (k k' : κ) (v : α) (items : List (κ × α)) :
    lookup k' (assign k v items) = if k' = k then some v else lookup k' items := by
  induction items with
  | nil =>
    rw [assign, lookup_cons]
    simp only [eq_comm]
  | cons item items ih =>
    rw [assign]
    split
    · rename_i hkey
      rw [lookup_cons, lookup_cons, hkey]
      by_cases h : k' = k
      · rw [if_pos h, if_pos h.symm]
      · rw [if_neg h, if_neg (Ne.symm h), if_neg (Ne.symm h)]
    · rename_i hkey
      rw [lookup_cons, lookup_cons, ih]
      by_cases h : k' = k
      · rw [if_pos h, if_pos h, h, if_neg hkey]
      · rw [if_neg h, if_neg h]

/-- An item under a new key is appended. -/
theorem assign_of_notMem {k : κ} {items : List (κ × α)} (h : k ∉ items.map Prod.fst) (v : α) :
    assign k v items = items ++ [(k, v)] := by
  induction items with
  | nil => rfl
  | cons item items ih =>
    rw [List.map_cons, List.mem_cons, not_or] at h
    rw [assign, if_neg (Ne.symm h.1), ih h.2, List.cons_append]

/-- The keys after an assignment. -/
theorem map_fst_assign (k : κ) (v : α) (items : List (κ × α)) :
    (assign k v items).map Prod.fst =
      if k ∈ items.map Prod.fst then items.map Prod.fst else items.map Prod.fst ++ [k] := by
  induction items with
  | nil => simp [assign]
  | cons item items ih =>
    rw [assign]
    split
    · rename_i hkey
      simp [hkey]
    · rename_i hkey
      rw [List.map_cons, ih, List.map_cons]
      by_cases hmem : k ∈ items.map Prod.fst
      · rw [if_pos hmem, if_pos (List.mem_cons_of_mem _ hmem)]
      · rw [if_neg hmem, if_neg (List.not_mem_cons_of_ne_of_not_mem (Ne.symm hkey) hmem)]
        rfl

/-- `d.get(k)`. -/
def get (d : Dict κ α) (k : κ) : Option α := lookup k d.items

/-- `d[k] = v`. -/
def set (d : Dict κ α) (k : κ) (v : α) : Dict κ α where
  items := assign k v d.items
  nodup := by
    rw [map_fst_assign]
    split
    · exact d.nodup
    · rename_i hmem
      rw [List.nodup_append_comm]
      exact List.nodup_cons.mpr ⟨hmem, d.nodup⟩

/-- **Assignment.**  The new value is read under its key, and every other key reads as before. -/
@[simp] theorem get_set (d : Dict κ α) (k k' : κ) (v : α) :
    (d.set k v).get k' = if k' = k then some v else d.get k' :=
  lookup_assign k k' v d.items

theorem keys_set (d : Dict κ α) (k : κ) (v : α) :
    (d.set k v).keys = if k ∈ d.keys then d.keys else d.keys ++ [k] :=
  map_fst_assign k v d.items

theorem get_eq_none {d : Dict κ α} {k : κ} : d.get k = none ↔ k ∉ d.keys := lookup_eq_none

theorem mem_keys_set {d : Dict κ α} {k k' : κ} {v : α} :
    k' ∈ (d.set k v).keys ↔ k' = k ∨ k' ∈ d.keys := by
  rw [keys_set]
  split
  · rename_i hmem
    constructor
    · exact Or.inr
    · rintro (rfl | h)
      · exact hmem
      · exact h
  · rw [List.mem_append, List.mem_singleton, or_comm]

/-- The items are what is read under the keys. -/
theorem mem_items {d : Dict κ α} {k : κ} {v : α} : (k, v) ∈ d.items ↔ d.get k = some v := by
  obtain ⟨items, hnodup⟩ := d
  unfold get
  induction items with
  | nil => simp [lookup]
  | cons item items ih =>
    rw [List.map_cons, List.nodup_cons] at hnodup
    rw [List.mem_cons, lookup_cons]
    constructor
    · rintro (rfl | hmem)
      · rw [if_pos rfl]
      · have hne : item.1 ≠ k := fun hkey =>
          hnodup.1 (hkey ▸ List.mem_map.mpr ⟨(k, v), hmem, rfl⟩)
        rw [if_neg hne]
        exact (ih hnodup.2).mp hmem
    · intro h
      split at h
      · rename_i hkey
        obtain ⟨k', v'⟩ := item
        cases hkey
        cases h
        exact Or.inl rfl
      · exact Or.inr ((ih hnodup.2).mpr h)

/-- Of what is made from the items, a test that only one key's part can pass keeps what it keeps of
that part. -/
theorem filter_flatMap {β : Type} {d : Dict κ α} {k : κ} {v : α} (hget : d.get k = some v)
    (f : κ × α → List β) (p : β → Bool)
    (hother : ∀ item ∈ d.items, item.1 ≠ k → ∀ b ∈ f item, p b = false) :
    (d.items.flatMap f).filter p = (f (k, v)).filter p := by
  obtain ⟨items, hnodup⟩ := d
  unfold get at hget
  dsimp only at hother ⊢
  induction items with
  | nil => cases hget
  | cons item items ih =>
    rw [List.map_cons, List.nodup_cons] at hnodup
    rw [lookup_cons] at hget
    rw [List.flatMap_cons, List.filter_append]
    split at hget
    · rename_i hkey
      have hrest : (items.flatMap f).filter p = [] := by
        rw [List.filter_eq_nil_iff]
        intro b hb
        obtain ⟨item', hitem', hb⟩ := List.mem_flatMap.mp hb
        have hne : item'.1 ≠ k := fun h =>
          hnodup.1 (List.mem_map.mpr ⟨item', hitem', h.trans hkey.symm⟩)
        rw [hother item' (List.mem_cons_of_mem _ hitem') hne b hb]
        exact Bool.false_ne_true
      obtain ⟨k', v'⟩ := item
      cases hkey
      cases hget
      rw [hrest, List.append_nil]
    · rename_i hkey
      have hfirst : (f item).filter p = [] := by
        rw [List.filter_eq_nil_iff]
        intro b hb
        rw [hother item List.mem_cons_self hkey b hb]
        exact Bool.false_ne_true
      rw [hfirst, List.nil_append]
      exact ih hnodup.2 hget fun item' hitem' => hother item' (List.mem_cons_of_mem _ hitem')

/-! ## Accumulating -/

section
variable [AddCommMonoid α]

/-- `d[k] = d.get(k, 0) + a`. -/
def add (d : Dict κ α) (k : κ) (a : α) : Dict κ α := d.set k ((d.get k).getD 0 + a)

@[simp] theorem get_add (d : Dict κ α) (k k' : κ) (a : α) :
    (d.add k a).get k' = if k' = k then some ((d.get k).getD 0 + a) else d.get k' :=
  get_set d k k' _

/-- `d.get(k, 0)`. -/
def value (d : Dict κ α) (k : κ) : α := (d.get k).getD 0

theorem value_add (d : Dict κ α) (k k' : κ) (a : α) :
    (d.add k a).value k' = d.value k' + if k = k' then a else 0 := by
  unfold value
  rw [get_add]
  by_cases h : k' = k
  · rw [if_pos h, if_pos h.symm, h]
    rfl
  · rw [if_neg h, if_neg (Ne.symm h), add_zero]

/-- The sum of the values under the keys of a kind. -/
def total (p : κ → Bool) (d : Dict κ α) : α :=
  ((d.items.filter fun item => p item.1).map Prod.snd).sum

theorem sum_assign (p : κ → Bool) (k : κ) (a : α) (items : List (κ × α)) :
    (((assign k ((lookup k items).getD 0 + a) items).filter fun item => p item.1).map
      Prod.snd).sum =
    ((items.filter fun item => p item.1).map Prod.snd).sum + if p k then a else 0 := by
  induction items with
  | nil =>
    by_cases hp : p k
    · simp [assign, lookup, hp]
    · simp [assign, lookup, hp]
  | cons item items ih =>
    rw [lookup_cons, assign]
    by_cases hkey : item.1 = k
    · rw [if_pos hkey, if_pos hkey]
      by_cases hp : p k
      · simp only [List.filter_cons, hkey, hp, if_true, List.map_cons, List.sum_cons,
          Option.getD_some]
        rw [add_assoc, add_assoc, add_comm a]
      · simp [hkey, hp]
    · rw [if_neg hkey, if_neg hkey, List.filter_cons, List.filter_cons]
      split
      · rw [List.map_cons, List.sum_cons, ih, List.map_cons, List.sum_cons, add_assoc]
      · exact ih

/-- **Accumulation.**  Adding under a key adds to the sum of every kind that key is of. -/
theorem total_add (p : κ → Bool) (d : Dict κ α) (k : κ) (a : α) :
    (d.add k a).total p = d.total p + if p k then a else 0 :=
  sum_assign p k a d.items

theorem mem_keys_add {d : Dict κ α} {k k' : κ} {a : α} :
    k' ∈ (d.add k a).keys ↔ k' = k ∨ k' ∈ d.keys :=
  mem_keys_set

end

end Dict

end OrderedDict
