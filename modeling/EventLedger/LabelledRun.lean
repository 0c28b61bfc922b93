import Mathlib.Order.Defs.Unbundled

/-!
# Runs of a labelled machine

A machine is a partial step function `step : σ → α → Option σ`: in state `s` the
label `a` is either refused (`none`) or leads to one next state.  All the
nondeterminism of a concurrent system sits in the labels, so a run is a list of
labels and two runs differ exactly by their labels.

`Run step s ls t` says that the labels `ls`, executed in order from `s`, end in
`t`.  The rules below are the induction principles of runs, each stated once: an
invariant kept by every step (`Run.preserves`), a preorder respected by every
step (`Run.relates`), and both for runs whose every step meets a side condition
(`Along`).
-/
namespace LabelledRun

variable {σ α : Type} {step : σ → α → Option σ}

/-- Executing the labels `ls` in order from `s` ends in `t`. -/
def Run (step : σ → α → Option σ) (s : σ) (ls : List α) (t : σ) : Prop :=
  ls.foldlM step s = some t

instance [DecidableEq σ] (s : σ) (ls : List α) (t : σ) : Decidable (Run step s ls t) :=
  inferInstanceAs (Decidable (_ = _))

@[simp] theorem run_nil {s t : σ} : Run step s [] t ↔ s = t := by
  simp [Run]

theorem run_cons {s t : σ} {a : α} {ls : List α} :
    Run step s (a :: ls) t ↔ ∃ u, step s a = some u ∧ Run step u ls t := by
  simp [Run, List.foldlM_cons, Option.bind_eq_some_iff]

theorem run_append {s t : σ} {ls ls' : List α} :
    Run step s (ls ++ ls') t ↔ ∃ u, Run step s ls u ∧ Run step u ls' t := by
  simp [Run, List.foldlM_append, Option.bind_eq_some_iff]

theorem run_singleton {s t : σ} {a : α} : Run step s [a] t ↔ step s a = some t := by
  simp [run_cons]

theorem Run.append {s t u : σ} {ls ls' : List α} (h : Run step s ls t) (h' : Run step t ls' u) :
    Run step s (ls ++ ls') u :=
  run_append.mpr ⟨t, h, h'⟩

theorem Run.snoc {s t u : σ} {ls : List α} {a : α} (h : Run step s ls t)
    (ha : step t a = some u) : Run step s (ls ++ [a]) u :=
  h.append (run_singleton.mpr ha)

/-- **The invariant rule.**  What every step keeps, every run keeps. -/
theorem Run.preserves {I : σ → Prop} (keep : ∀ s a t, I s → step s a = some t → I t)
    {s t : σ} {ls : List α} (h : Run step s ls t) (hs : I s) : I t := by
  induction ls generalizing s with
  | nil => exact run_nil.mp h ▸ hs
  | cons a ls ih =>
    obtain ⟨u, ha, hu⟩ := run_cons.mp h
    exact ih hu (keep s a u hs ha)

/-- **The preorder rule.**  A reflexive and transitive relation that holds
between the two ends of every step from a state satisfying the invariant `I`
holds between the two ends of every run from such a state. -/
theorem Run.relates {I : σ → Prop} {R : σ → σ → Prop} (refl : ∀ s, R s s)
    (trans : ∀ s t u, R s t → R t u → R s u)
    (keep : ∀ s a t, I s → step s a = some t → I t)
    (mono : ∀ s a t, I s → step s a = some t → R s t)
    {s t : σ} {ls : List α} (h : Run step s ls t) (hs : I s) : R s t := by
  induction ls generalizing s with
  | nil => exact run_nil.mp h ▸ refl s
  | cons a ls ih =>
    obtain ⟨u, ha, hu⟩ := run_cons.mp h
    exact trans s u t (mono s a u hs ha) (ih hu (keep s a u hs ha))

/-! ## Side conditions on the steps of a run -/

/-- Every step taken while executing `ls` from `s` meets `C`: its state, its
label and its next state. -/
def Along (step : σ → α → Option σ) (C : σ → α → σ → Prop) : σ → List α → Prop
  | _, [] => True
  | s, a :: ls => ∀ t, step s a = some t → C s a t ∧ Along step C t ls

/-- A side condition that can be evaluated can be evaluated along a run. -/
instance Along.decidable (step : σ → α → Option σ) (C : σ → α → σ → Prop)
    [∀ s a t, Decidable (C s a t)] : ∀ s ls, Decidable (Along step C s ls)
  | _, [] => .isTrue trivial
  | s, a :: ls =>
    match h : step s a with
    | none => .isTrue fun t ht => by simp [h] at ht
    | some u =>
      have := Along.decidable step C u ls
      decidable_of_iff (C s a u ∧ Along step C u ls) <| by
        simp [Along, h]

theorem along_cons {C : σ → α → σ → Prop} {s t : σ} {a : α} {ls : List α}
    (ha : step s a = some t) :
    Along step C s (a :: ls) ↔ C s a t ∧ Along step C t ls := by
  constructor
  · intro h
    exact h t ha
  · intro h u hu
    cases Option.some.inj (ha.symm.trans hu)
    exact h

theorem Along.and {C D : σ → α → σ → Prop} {s : σ} {ls : List α} (h : Along step C s ls)
    (h' : Along step D s ls) : Along step (fun u a v => C u a v ∧ D u a v) s ls := by
  induction ls generalizing s with
  | nil => trivial
  | cons a ls ih => exact fun t ht => ⟨⟨(h t ht).1, (h' t ht).1⟩, ih (h t ht).2 (h' t ht).2⟩

/-- A condition on labels alone holds along every run over such labels. -/
theorem along_of_labels {C : σ → α → σ → Prop} {s : σ} {ls : List α}
    (h : ∀ a ∈ ls, ∀ u v, C u a v) : Along step C s ls := by
  induction ls generalizing s with
  | nil => trivial
  | cons a ls ih =>
    exact fun t _ => ⟨h a List.mem_cons_self s t, ih fun b hb => h b (List.mem_cons_of_mem _ hb)⟩

/-- A side condition holds along a run if every step that the run can still be
completed from meets it. -/
theorem Run.along {I : σ → Prop} {C : σ → α → σ → Prop}
    (keep : ∀ s a t, I s → step s a = some t → I t) {s t : σ} {ls : List α}
    (hC : ∀ u a v ls', I u → step u a = some v → Run step v ls' t → C u a v)
    (h : Run step s ls t) (hs : I s) : Along step C s ls := by
  induction ls generalizing s with
  | nil => trivial
  | cons a ls ih =>
    obtain ⟨u, ha, hu⟩ := run_cons.mp h
    exact (along_cons ha).mpr ⟨hC s a u ls hs ha hu, ih hu (keep s a u hs ha)⟩

/-- The invariant rule for runs whose every step meets `C`: the invariant holds
at the end, and each step's own conclusion `D` holds along the run. -/
theorem Along.preserves {I : σ → Prop} {C D : σ → α → σ → Prop}
    (keep : ∀ s a t, I s → step s a = some t → C s a t → I t ∧ D s a t)
    {s t : σ} {ls : List α} (hC : Along step C s ls) (h : Run step s ls t) (hs : I s) :
    I t ∧ Along step D s ls := by
  induction ls generalizing s with
  | nil => exact ⟨run_nil.mp h ▸ hs, trivial⟩
  | cons a ls ih =>
    obtain ⟨u, ha, hu⟩ := run_cons.mp h
    obtain ⟨hc, hrest⟩ := (along_cons ha).mp hC
    obtain ⟨hIu, hD⟩ := keep s a u hs ha hc
    obtain ⟨hIt, hAlong⟩ := ih hrest hu hIu
    exact ⟨hIt, (along_cons ha).mpr ⟨hD, hAlong⟩⟩

/-- Along a run, what does not hold at its start but holds at its end comes to hold in one of its
steps, which meets the side condition. -/
theorem Along.exists_step {C : σ → α → σ → Prop} {P : σ → Prop} {s t : σ} {ls : List α}
    (hC : Along step C s ls) (h : Run step s ls t) (hs : ¬ P s) (ht : P t) :
    ∃ before a after u v, ls = before ++ a :: after ∧ Run step s before u ∧ step u a = some v ∧
      Run step v after t ∧ ¬ P u ∧ P v ∧ C u a v := by
  induction ls generalizing s with
  | nil => exact absurd (run_nil.mp h ▸ ht) hs
  | cons a ls ih =>
    obtain ⟨u, ha, hu⟩ := run_cons.mp h
    obtain ⟨hcond, hrest⟩ := (along_cons ha).mp hC
    by_cases hPu : P u
    · exact ⟨[], a, ls, s, u, rfl, run_nil.mpr rfl, ha, hu, hs, hPu, hcond⟩
    · obtain ⟨before, b, after, v, w, rfl, hbefore, hb, hafter, hv, hw, hcond'⟩ := ih hrest hu hPu
      exact ⟨a :: before, b, after, v, w, rfl, run_cons.mpr ⟨u, ha, hbefore⟩, hb, hafter, hv, hw,
        hcond'⟩

/-! ## States between two states -/

/-- Some run leads from the first state to the second. -/
def Leads (step : σ → α → Option σ) (s t : σ) : Prop := ∃ ls, Run step s ls t

/-- Some run from `s` to `t` passes through `u`. -/
def Passes (step : σ → α → Option σ) (s u t : σ) : Prop := Leads step s u ∧ Leads step u t

section
variable {s t u v : σ} {a : α} {ls : List α}

theorem Leads.refl (s : σ) : Leads step s s := ⟨[], run_nil.mpr rfl⟩

theorem Leads.trans (h : Leads step s t) (h' : Leads step t u) : Leads step s u := by
  obtain ⟨ls, hls⟩ := h
  obtain ⟨ls', hls'⟩ := h'
  exact ⟨ls ++ ls', hls.append hls'⟩

theorem Leads.snoc (h : Leads step s t) (ha : step t a = some u) : Leads step s u :=
  h.trans ⟨[a], run_singleton.mpr ha⟩

/-- A run passes through its last state. -/
theorem Leads.passes (h : Leads step s t) : Passes step s t t := ⟨h, .refl t⟩

/-- What was passed stays passed. -/
theorem Passes.snoc (h : Passes step s u t) (ha : step t a = some v) : Passes step s u v :=
  ⟨h.1, h.2.snoc ha⟩

/-- The invariant rule for what refers to the state a run started in. -/
theorem Run.preserves_since {I : σ → Prop} (h : Run step s ls t)
    (keep : ∀ u a v, Leads step s u → I u → step u a = some v → I v) (hs : I s) : I t := by
  have hboth : Leads step s t ∧ I t := by
    refine Run.preserves (I := fun u => Leads step s u ∧ I u) ?_ h ⟨.refl s, hs⟩
    rintro u a v ⟨hleads, hu⟩ ha
    exact ⟨hleads.snoc ha, keep u a v hleads hu ha⟩
  exact hboth.2

end

/-! ## Steps that leave the next state open -/

/-- The labels lead from the first state to the last, each by a move it allows. -/
inductive Walk (moves : σ → α → σ → Prop) : σ → List α → σ → Prop
  | nil (s : σ) : Walk moves s [] s
  | cons {s t u : σ} {a : α} {ls : List α} (h : moves s a t) (rest : Walk moves t ls u) :
    Walk moves s (a :: ls) u

section
variable {moves : σ → α → σ → Prop} {s t : σ}

@[simp] theorem walk_nil : Walk moves s [] t ↔ t = s := by
  constructor
  · rintro ⟨⟩
    rfl
  · rintro rfl
    exact .nil t

theorem walk_cons {a : α} {ls : List α} :
    Walk moves s (a :: ls) t ↔ ∃ u, moves s a u ∧ Walk moves u ls t := by
  constructor
  · rintro ⟨⟩
    exact ⟨_, ‹_›, ‹_›⟩
  · rintro ⟨u, h, rest⟩
    exact .cons h rest

theorem walk_singleton {a : α} : Walk moves s [a] t ↔ moves s a t := by
  rw [walk_cons]
  constructor
  · rintro ⟨u, h, ⟨⟩⟩
    exact h
  · exact fun h => ⟨t, h, .nil t⟩

theorem walk_append {ls ls' : List α} :
    Walk moves s (ls ++ ls') t ↔ ∃ u, Walk moves s ls u ∧ Walk moves u ls' t := by
  induction ls generalizing s with
  | nil =>
    constructor
    · exact fun h => ⟨s, .nil s, h⟩
    · rintro ⟨u, ⟨⟩, h⟩
      exact h
  | cons a ls ih =>
    rw [List.cons_append, walk_cons]
    constructor
    · rintro ⟨u, h, hrest⟩
      obtain ⟨v, hls, hls'⟩ := ih.mp hrest
      exact ⟨v, .cons h hls, hls'⟩
    · rintro ⟨v, hls, hls'⟩
      obtain ⟨u, h, hrest⟩ := walk_cons.mp hls
      exact ⟨u, h, ih.mpr ⟨v, hrest, hls'⟩⟩

theorem walk_map {β : Type} {f : β → α} {ls : List β} :
    Walk moves s (ls.map f) t ↔ Walk (fun s b t => moves s (f b) t) s ls t := by
  induction ls generalizing s with
  | nil => rw [List.map_nil, walk_nil, walk_nil]
  | cons b ls ih =>
    rw [List.map_cons, walk_cons, walk_cons]
    exact exists_congr fun u => and_congr_right fun _ => ih

/-- What every move keeps, every walk keeps. -/
theorem Walk.preserves {I : σ → Prop} {ls : List α} (keep : ∀ s a t, I s → moves s a t → I t)
    (h : Walk moves s ls t) (hs : I s) : I t := by
  induction h with
  | nil s => exact hs
  | cons hmove _ ih => exact ih (keep _ _ _ hs hmove)

/-- Labels that allow every state to be kept lead from every state to itself. -/
theorem walk_refl {ls : List α} (h : ∀ a ∈ ls, moves s a s) : Walk moves s ls s := by
  induction ls with
  | nil => exact .nil s
  | cons a ls ih =>
    exact .cons (h a List.mem_cons_self) (ih fun b hb => h b (List.mem_cons_of_mem a hb))

end

end LabelledRun
