import EventLedger.KeyedTable
import EventLedger.ServiceRuns

/-!
# Services over a keyed table

Handlers that look rows up and add rows, each in one atomic operation, and nothing
else to the table (`OnTable`).  A lookup that finds nothing may be followed by an
insert that is refused, because others act in between.  What remains true of a
table that only grows is what the threads have seen of it: a row once found or
added stays where it is, so a key once found taken is found taken ever after
(`run_onTable`), and a key is added by one thread at most (`countP_creators_le`).
-/
namespace KeyedTable

variable {ρ κ : Type} {key : ρ → κ}

/-- What an operation has seen of the table, or done to it. -/
inductive TableEvent (ρ κ : Type) where
  | looked (k : κ) (found : Option ρ)
  | added (r : ρ) (created : Bool)

namespace TableEvent

/-- The row the operation has added. -/
def created? : TableEvent ρ κ → Option ρ
  | .added r true => some r
  | _ => none

/-- The key the operation has found taken, or has taken. -/
def taken? (key : ρ → κ) : TableEvent ρ κ → Option κ
  | .looked k (some _) => some k
  | .looked _ none => none
  | .added r _ => some (key r)

/-- The row the operation has come upon, and whether it was there (`true`) or has been added. -/
def shown? : TableEvent ρ κ → Option (ρ × Bool)
  | .looked _ found => found.map fun r => (r, true)
  | .added r true => some (r, false)
  | .added _ false => none

variable [DecidableEq κ] {t t' : Table key} {e e' : TableEvent ρ κ}

/-- The table before and after an operation. -/
def Moves (t t' : Table key) : Option (TableEvent ρ κ) → Prop
  | none => t' = t
  | some (.looked k found) => t' = t ∧ t.get k = found
  | some (.added r true) => t.insert r = some t'
  | some (.added r false) => t' = t ∧ t.insert r = none

/-- What the operation has seen still is so. -/
def Holds (t : Table key) : TableEvent ρ κ → Prop
  | .looked k (some r) => t.get k = some r
  | .looked _ none => True
  | .added r true => t.get (key r) = some r
  | .added r false => ∃ r', t.get (key r) = some r'

/-- After `e`, no lookup of the key it has found taken comes back empty. -/
def Precedes (key : ρ → κ) (e e' : TableEvent ρ κ) : Prop :=
  ∀ k, e.taken? key = some k → e' ≠ .looked k none

theorem Moves.grows {oe : Option (TableEvent ρ κ)} (h : Moves t t' oe) : t.Grows t' := by
  rcases oe with _ | ⟨k, found⟩ | ⟨r, created⟩
  · cases h
    exact Table.Grows.refl t
  · cases h.1
    exact Table.Grows.refl t
  · cases created with
    | true => exact Table.grows_insert h
    | false =>
      cases h.1
      exact Table.Grows.refl t

theorem Moves.holds (h : Moves t t' (some e)) : e.Holds t' := by
  rcases e with ⟨k, found⟩ | ⟨r, created⟩
  · obtain ⟨rfl, hget⟩ := h
    cases found with
    | none => trivial
    | some r => exact hget
  · cases created with
    | true => exact Table.get_insert_self h
    | false =>
      obtain ⟨rfl, hinsert⟩ := h
      exact Table.insert_eq_none_iff.mp hinsert

theorem Holds.grows (h : e.Holds t) (hgrows : t.Grows t') : e.Holds t' := by
  rcases e with ⟨k, _ | r⟩ | ⟨r, _ | _⟩
  · trivial
  · exact hgrows _ _ h
  · obtain ⟨r', hr'⟩ := h
    exact ⟨r', hgrows _ _ hr'⟩
  · exact hgrows _ _ h

theorem Holds.exists_get {k : κ} (h : e.Holds t) (hk : e.taken? key = some k) :
    ∃ r, t.get k = some r := by
  rcases e with ⟨k', _ | r⟩ | ⟨r, created⟩
  · cases hk
  · cases hk
    exact ⟨r, h⟩
  · cases hk
    cases created with
    | true => exact ⟨r, h⟩
    | false => exact h

theorem Moves.precedes (h : Moves t t' (some e')) (he : e.Holds t) : e.Precedes key e' := by
  rintro k hk rfl
  obtain ⟨r, hr⟩ := he.exists_get hk
  exact absurd (hr.symm.trans h.2) (by simp)

/-- The rows after an operation. -/
theorem Moves.rows {oe : Option (TableEvent ρ κ)} (h : Moves t t' oe) :
    t'.rows = t.rows ++ (oe.bind created?).toList := by
  rcases oe with _ | ⟨k, found⟩ | ⟨r, _ | _⟩
  · cases h
    exact (List.append_nil _).symm
  · cases h.1
    exact (List.append_nil _).symm
  · cases h.1
    exact (List.append_nil _).symm
  · exact Table.rows_insert h

end TableEvent

end KeyedTable

namespace Program.Service

open LabelledRun KeyedTable TableEvent

variable {Req Op Ans σ ε ρ κ : Type} {Ret : Op → Type} {key : ρ → κ} [DecidableEq κ]

/-- Every operation is one on the table, or leaves it alone. -/
def OnTable (V : Service Req Op Ret Ans σ ε) (table : σ → Table key)
    (view : Event Op Ret → Option (TableEvent ρ κ)) : Prop :=
  ∀ env s o s' r, V.exec env s o = some (s', r) → Moves (table s) (table s') (view ⟨o, r⟩)

variable {V : Service Req Op Ret Ans σ ε} {table : σ → Table key}
  {view : Event Op Ret → Option (TableEvent ρ κ)} {store : σ} {t : State Req Op Ret Ans σ}
  {ls : List (Label Req ε)}

/-- What a thread has seen of the table still is so, and was so throughout. -/
structure Thread.Sees (view : Event Op Ret → Option (TableEvent ρ κ)) (table : Table key)
    (th : Thread Req Op Ret Ans) : Prop where
  holds : ∀ e ∈ th.events.filterMap view, e.Holds table
  ordered : (th.events.filterMap view).Pairwise (Precedes key)

theorem Thread.Sees.grows {table table' : Table key} {th : Thread Req Op Ret Ans}
    (h : th.Sees view table) (hgrows : table.Grows table') : th.Sees view table' :=
  ⟨fun e he => (h.holds e he).grows hgrows, h.ordered⟩

theorem filterMap_snoc {α β : Type} {f : α → Option β} (l : List α) (a : α) :
    (l ++ [a]).filterMap f = l.filterMap f ++ (f a).toList := by
  rw [List.filterMap_append]
  cases h : f a <;> simp [h]

theorem Thread.Sees.snoc {table table' : Table key} {req : Req} {es : List (Event Op Ret)}
    {p q : Prog Op Ret Ans} {e : Event Op Ret} (h : Thread.Sees view table ⟨req, es, p⟩)
    (hmoves : Moves table table' (view e)) :
    Thread.Sees view table' ⟨req, es ++ [e], q⟩ := by
  have hlast : ∀ e' ∈ (view e).toList, Moves table table' (some e') := by
    intro e' he'
    rw [Option.mem_toList.mp he'] at hmoves
    exact hmoves
  constructor
  · intro e' he'
    rcases List.mem_append.mp (filterMap_snoc es e ▸ he') with hold | hnew
    · exact (h.holds e' hold).grows hmoves.grows
    · exact (hlast e' hnew).holds
  · rw [filterMap_snoc]
    refine List.pairwise_append.mpr ⟨h.ordered, ?_, fun e' he' e'' he'' => ?_⟩
    · cases view e with
      | none => exact List.Pairwise.nil
      | some e' => exact List.pairwise_singleton _ e'
    · exact (hlast e'' he'').precedes (h.holds e' he')

/-- **What the threads have seen**, in every state of every run. -/
theorem run_onTable (hV : V.OnTable table view) (h : Run V.step (.initial store) ls t) :
    (table store).Grows (table t.store) ∧ ∀ th ∈ t.threads, th.Sees view (table t.store) := by
  refine Run.preserves (I := fun s : State Req Op Ret Ans σ =>
    (table store).Grows (table s.store) ∧ ∀ th ∈ s.threads, th.Sees view (table s.store)) ?_ h
    ⟨Table.Grows.refl _, fun th hth => absurd hth List.not_mem_nil⟩
  rintro s a t ⟨hgrows, hsees⟩ hstep
  have hcases := step_cases hstep
  have hstore : (table s.store).Grows (table t.store) := by
    cases hcases with
    | arrive req => exact Table.Grows.refl _
    | act i env req es o k store r hthread hexec => exact (hV _ _ _ _ _ hexec).grows
  refine ⟨hgrows.trans hstore, ?_⟩
  refine forall_threads_step (P := fun th => th.Sees view (table t.store)) hcases
    (fun th hth => (hsees th hth).grows hstore) ?_ ?_
  · intro req _
    exact ⟨fun e he => absurd he List.not_mem_nil, List.Pairwise.nil⟩
  · intro i env req es o k store' r _ hthread hexec htstore _
    rw [htstore]
    exact (hsees _ (List.mem_of_getElem? hthread)).snoc (hV _ _ _ _ _ hexec)

/-! ## Who has added a row -/

/-- The thread has added a row under this key. -/
def Thread.Creates (view : Event Op Ret → Option (TableEvent ρ κ)) (key : ρ → κ) (k : κ)
    (th : Thread Req Op Ret Ans) : Prop :=
  ∃ r, .added r true ∈ th.events.filterMap view ∧ key r = k

/-- What an event adds to the rows. -/
def rowsOf (view : Event Op Ret → Option (TableEvent ρ κ)) (e : Event Op Ret) : List ρ :=
  ((view e).bind created?).toList

omit [DecidableEq κ] in
theorem mem_rowsOf {e : Event Op Ret} {r : ρ} :
    r ∈ rowsOf view e ↔ view e = some (.added r true) := by
  rw [rowsOf, Option.mem_toList, Option.bind_eq_some_iff]
  constructor
  · rintro ⟨⟨k, found⟩ | ⟨r', _ | _⟩, hview, hr⟩
    · cases hr
    · cases hr
    · cases hr
      exact hview
  · intro hview
    exact ⟨_, hview, rfl⟩

omit [DecidableEq κ] in
theorem creates_iff {k : κ} {th : Thread Req Op Ret Ans} :
    th.Creates view key k ↔ ∃ r ∈ th.events.flatMap (rowsOf view), key r = k := by
  constructor
  · rintro ⟨r, hmem, hk⟩
    obtain ⟨e, he, hview⟩ := List.mem_filterMap.mp hmem
    exact ⟨r, List.mem_flatMap.mpr ⟨e, he, mem_rowsOf.mpr hview⟩, hk⟩
  · rintro ⟨r, hmem, hk⟩
    obtain ⟨e, he, hr⟩ := List.mem_flatMap.mp hmem
    exact ⟨r, List.mem_filterMap.mpr ⟨e, he, mem_rowsOf.mp hr⟩, hk⟩

theorem rows_accounted (hV : V.OnTable table view) (h : Run V.step (.initial store) ls t) :
    ((table t.store).rows).Perm ((table store).rows ++ t.emitted (rowsOf view)) := by
  have hview : ∀ env s o s' r, V.exec env s o = some (s', r) →
      (table s').rows = (table s).rows ++ rowsOf view ⟨o, r⟩ :=
    fun env s o s' r hexec => (hV env s o s' r hexec).rows
  exact accounted hview h

/-- Threads that have added a row are no more than the rows they have added. -/
theorem countP_le_countP_flatMap {γ β : Type} {p : γ → Bool} {q : β → Bool} {f : γ → List β}
    {l : List γ} (h : ∀ x ∈ l, p x → ∃ y ∈ f x, q y) : l.countP p ≤ (l.flatMap f).countP q := by
  induction l with
  | nil => exact Nat.zero_le _
  | cons x l ih =>
    have hrest := ih fun y hy => h y (List.mem_cons_of_mem x hy)
    rw [List.countP_cons, List.flatMap_cons, List.countP_append]
    split
    · rename_i hp
      obtain ⟨y, hy, hq⟩ := h x List.mem_cons_self hp
      have hone : 0 < (f x).countP q := List.countP_pos_iff.mpr ⟨y, hy, hq⟩
      omega
    · omega

/-- A key occurs at most once among the rows. -/
theorem countP_key_le (table : Table key) (k : κ) :
    table.rows.countP (fun r => key r = k) ≤ 1 := by
  have hcount : (table.rows.map key).count k ≤ 1 := List.nodup_iff_count_le_one.mp table.nodup k
  rw [List.count, List.countP_map] at hcount
  refine Nat.le_trans (Nat.le_of_eq (List.countP_congr fun r _ => ?_)) hcount
  simp

/-- **One creator at most.** -/
theorem countP_creators_le (hV : V.OnTable table view) (h : Run V.step (.initial store) ls t)
    {k : κ} {p : Thread Req Op Ret Ans → Bool}
    (hp : ∀ th ∈ t.threads, p th → th.Creates view key k) : t.threads.countP p ≤ 1 := by
  have hrows := (rows_accounted hV h).countP_eq (fun r => decide (key r = k))
  have hone := countP_key_le (table t.store) k
  have hthreads : t.threads.countP p ≤ (t.emitted (rowsOf view)).countP fun r => key r = k := by
    refine countP_le_countP_flatMap fun th hth hpth => ?_
    obtain ⟨r, hr, hk⟩ := creates_iff.mp (hp th hth hpth)
    exact ⟨r, hr, by simpa using hk⟩
  rw [List.countP_append] at hrows
  omega

/-- **One creator**, of a row that was not there when the service was started. -/
theorem countP_creators_eq (hV : V.OnTable table view) (h : Run V.step (.initial store) ls t)
    {k : κ} {p : Thread Req Op Ret Ans → Bool}
    (hp : ∀ th ∈ t.threads, p th ↔ th.Creates view key k) (hnew : (table store).get k = none)
    (hrow : ∃ r, (table t.store).get k = some r) : t.threads.countP p = 1 := by
  obtain ⟨r, hr⟩ := hrow
  have hmem : r ∈ (table store).rows ++ t.emitted (rowsOf view) :=
    (rows_accounted hV h).mem_iff.mp (Table.mem_of_get hr)
  have hkey := Table.key_of_get hr
  have hemitted : r ∈ t.emitted (rowsOf view) := by
    rcases List.mem_append.mp hmem with hold | hadded
    · exact absurd (List.mem_map.mpr ⟨r, hold, hkey⟩) (Table.get_eq_none_iff.mp hnew)
    · exact hadded
  obtain ⟨th, hth, hadds⟩ := List.mem_flatMap.mp hemitted
  have hpos : 0 < t.threads.countP p :=
    List.countP_pos_iff.mpr ⟨th, hth, (hp th hth).mpr (creates_iff.mpr ⟨r, hadds, hkey⟩)⟩
  have hle := countP_creators_le hV h fun th hth hpth => (hp th hth).mp hpth
  omega

/-! ## Look up, insert, look up again -/

/-- What a handler that gets or creates a row sees of the table, and the row it goes on with: one
that was there, or the one it has added (`false`). -/
inductive GetOrCreate (key : ρ → κ) (k : κ) : List (TableEvent ρ κ) → Option (ρ × Bool) → Prop
  /-- The handler has not come to the table. -/
  | refused : GetOrCreate key k [] none
  | found (r : ρ) : GetOrCreate key k [.looked k (some r)] (some (r, true))
  /-- There is no row, and the handler adds none. -/
  | abandoned : GetOrCreate key k [.looked k none] none
  | created (r : ρ) (hk : key r = k) :
      GetOrCreate key k [.looked k none, .added r true] (some (r, false))
  /-- Another handler was faster. -/
  | raced (r r' : ρ) (hk : key r = k) :
      GetOrCreate key k [.looked k none, .added r false, .looked k (some r')] (some (r', true))
  /-- Another handler was faster, and its row is not there. -/
  | lost (r : ρ) (hk : key r = k) :
      GetOrCreate key k [.looked k none, .added r false, .looked k none] none

variable {k : κ} {th : Thread Req Op Ret Ans} {current : Table key} {result : Option (ρ × Bool)}

omit [DecidableEq κ] in
/-- Of all that the handler sees, only the row it goes on with is a row. -/
theorem GetOrCreate.filterMap_shown? {seen : List (TableEvent ρ κ)}
    (h : GetOrCreate key k seen result) : seen.filterMap shown? = result.toList := by
  cases h with
  | _ => rfl

/-- The row a handler goes on with is the row of the table. -/
theorem Thread.Sees.get_of_result (h : th.Sees view current)
    (hstory : GetOrCreate key k (th.events.filterMap view) result) {r : ρ} {old : Bool}
    (hresult : result = some (r, old)) : current.get k = some r := by
  have hholds := h.holds
  generalize th.events.filterMap view = es at hstory hholds
  cases hstory with
  | refused => cases hresult
  | abandoned => cases hresult
  | lost r' hk => cases hresult
  | found r' =>
    cases hresult
    exact hholds (.looked k (some r)) (by simp)
  | created r' hk =>
    cases hresult
    exact hk ▸ hholds (.added r true) (by simp)
  | raced r₁ r₂ hk =>
    cases hresult
    exact hholds (.looked k (some r)) (by simp)

omit [DecidableEq κ] in
/-- A handler creates a row exactly if it goes on with the row it has added. -/
theorem creates_iff_result (hstory : GetOrCreate key k (th.events.filterMap view) result) {k' : κ} :
    th.Creates view key k' ↔ ∃ r, result = some (r, false) ∧ key r = k' := by
  unfold Thread.Creates
  generalize th.events.filterMap view = es at hstory
  cases hstory with
  | created r hk => simp
  | _ => simp

omit [DecidableEq κ] in
/-- The row a handler has added is one under the key it has looked up. -/
theorem key_of_created (hstory : GetOrCreate key k (th.events.filterMap view) result) {r : ρ}
    (hresult : result = some (r, false)) : key r = k := by
  generalize th.events.filterMap view = es at hstory
  cases hstory with
  | created r' hk =>
    cases hresult
    exact hk
  | _ => cases hresult

end Program.Service
