import Mathlib.Order.Defs.Unbundled

/-!
# Programs interleaved on shared state

A program is a tree of atomic operations: it is finished, or it performs one
operation and continues with what that returns.  Threads running such programs
interleave between operations, so what a thread may assume is what survives
everybody else's steps.

Two assertions about programs are developed here.  `All` is about the operations
alone: whatever the program is told, it only ever performs operations of a kind.
`Safe` is rely–guarantee: started in a state, and with others moving the state
along a preorder `Rely` between any two of its operations, the program keeps the
invariant at every operation and its result satisfies the postcondition ever
after.  Both have one rule for each way a program is built.
-/
namespace Program

/-- A program over operations `Op`, each returning a value of its own type. -/
inductive Prog (Op : Type) (Ret : Op → Type) (α : Type) : Type where
  | done (a : α)
  | act (o : Op) (k : Ret o → Prog Op Ret α)

namespace Prog

variable {Op : Type} {Ret : Op → Type} {α β : Type}

/-- One program after another. -/
def bind : Prog Op Ret α → (α → Prog Op Ret β) → Prog Op Ret β
  | done a, f => f a
  | act o k, f => act o fun r => (k r).bind f

instance : Monad (Prog Op Ret) where
  pure := done
  bind := bind

/-- The program that performs one operation. -/
def perform (o : Op) : Prog Op Ret (Ret o) := act o done

@[simp] theorem pure_eq (a : α) : (pure a : Prog Op Ret α) = done a := rfl

@[simp] theorem done_bind (a : α) (f : α → Prog Op Ret β) : done a >>= f = f a := rfl

@[simp] theorem perform_bind (o : Op) (f : Ret o → Prog Op Ret β) :
    perform o >>= f = act o f := rfl

/-! ## What operations a program performs -/

/-- Every operation the program can come to perform satisfies `P`. -/
def All (P : Op → Prop) : Prog Op Ret α → Prop
  | done _ => True
  | act o k => P o ∧ ∀ r, (k r).All P

variable {P : Op → Prop}

@[simp] theorem all_done (a : α) : (done a : Prog Op Ret α).All P := trivial

@[simp] theorem all_act {o : Op} {k : Ret o → Prog Op Ret α} :
    (act o k).All P ↔ P o ∧ ∀ r, (k r).All P := Iff.rfl

end Prog

/-! ## Rely–guarantee -/

/-- How operations act on a state, given what the surroundings choose; an operation may have to
wait.  Between two operations of a thread the state moves along `Rely`, and every operation is
itself such a move. -/
structure Machine (σ ε Op : Type) (Ret : Op → Type) where
  exec : ε → σ → (o : Op) → Option (σ × Ret o)
  Inv : σ → Prop
  Rely : σ → σ → Prop
  rely_refl : ∀ s, Rely s s
  rely_trans : ∀ {s t u}, Rely s t → Rely t u → Rely s u
  exec_rely : ∀ {env s o s' r}, exec env s o = some (s', r) → Rely s s'

namespace Machine

variable {σ ε Op : Type} {Ret : Op → Type} {α β : Type} (M : Machine σ ε Op Ret)

open Prog

/-- Started in `s`, the program keeps the invariant and ends in `Post`. -/
def Safe (Post : α → σ → Prop) : Prog Op Ret α → σ → Prop
  | done a, s => ∀ s', M.Rely s s' → M.Inv s' → Post a s'
  | act o k, s => ∀ s', M.Rely s s' → M.Inv s' → ∀ env r s'',
      M.exec env s' o = some (s'', r) → M.Inv s'' ∧ Safe Post (k r) s''

variable {M} {Post : α → σ → Prop} {p : Prog Op Ret α} {s s' : σ}

/-- Others' moves do not hurt. -/
theorem Safe.stable (h : M.Safe Post p s) (hrely : M.Rely s s') : M.Safe Post p s' := by
  cases p with
  | done a => exact fun t ht => h t (M.rely_trans hrely ht)
  | act o k => exact fun t ht => h t (M.rely_trans hrely ht)

/-- A finished program's result keeps its postcondition. -/
theorem Safe.post {a : α} (h : M.Safe Post (done a) s) (hinv : M.Inv s) : Post a s :=
  h s (M.rely_refl s) hinv

/-- What one operation of a safe program leaves behind. -/
theorem Safe.step {o : Op} {k : Ret o → Prog Op Ret α} {env : ε} {r : Ret o}
    (h : M.Safe Post (act o k) s) (hinv : M.Inv s) (hexec : M.exec env s o = some (s', r)) :
    M.Inv s' ∧ M.Safe Post (k r) s' :=
  h s (M.rely_refl s) hinv env r s' hexec

/-- It is enough to be safe from wherever the others may have moved the state. -/
theorem safe_of_rely (h : ∀ s', M.Rely s s' → M.Inv s' → M.Safe Post p s') :
    M.Safe Post p s := by
  cases p with
  | done a => exact fun t ht hinv => h t ht hinv t (M.rely_refl t) hinv
  | act o k => exact fun t ht hinv => h t ht hinv t (M.rely_refl t) hinv

/-- **One operation.**  It is enough to look at what it does from wherever the others may have
moved the state. -/
theorem safe_act {o : Op} {k : Ret o → Prog Op Ret α}
    (h : ∀ s' env s'' r, M.Rely s s' → M.Inv s' → M.exec env s' o = some (s'', r) →
      M.Inv s'' ∧ M.Safe Post (k r) s'') : M.Safe Post (act o k) s :=
  fun s' hrely hinv env r s'' hexec => h s' env s'' r hrely hinv hexec

/-- **Sequencing.**  The first program's postcondition is what the second starts from. -/
theorem Safe.bind {Mid : β → σ → Prop} {q : Prog Op Ret β} {f : β → Prog Op Ret α}
    (hq : M.Safe Mid q s)
    (hf : ∀ b s', M.Rely s s' → M.Inv s' → Mid b s' → M.Safe Post (f b) s') :
    M.Safe Post (q >>= f) s := by
  induction q generalizing s with
  | done b => exact safe_of_rely fun t ht hinv => hf b t ht hinv (hq t ht hinv)
  | act o k ih =>
    apply safe_act
    intro t env u r ht hinv hexec
    obtain ⟨hinv', hk⟩ := hq t ht hinv env r u hexec
    have hsu := M.rely_trans ht (M.exec_rely hexec)
    exact ⟨hinv', ih r hk fun b v hv => hf b v (M.rely_trans hsu hv)⟩

/-- **Simulation.**  A program that is safe in `s` is safe in a state `t` that `s` stands for: every
move of the others from `t` is one from `s`, and so is every operation. -/
theorem Safe.transfer {R : σ → σ → Prop} {t : σ} (h : M.Safe Post p s) (hR : R s t)
    (hmove : ∀ s t t', R s t → M.Rely t t' → M.Inv t' → ∃ s', R s' t' ∧ M.Rely s s' ∧ M.Inv s')
    (hexec : ∀ s t env o t' r, R s t → M.Inv t → M.exec env t o = some (t', r) →
      ∃ s', M.exec env s o = some (s', r) ∧ (M.Inv s' → R s' t' ∧ M.Inv t'))
    (hpost : ∀ a s t, R s t → Post a s → Post a t) : M.Safe Post p t := by
  induction p generalizing s t with
  | done a =>
    intro t' hrely hinv
    obtain ⟨s', hR', hrely', hinv'⟩ := hmove s t t' hR hrely hinv
    exact hpost a s' t' hR' (h s' hrely' hinv')
  | act o k ih =>
    apply safe_act
    intro t' env t'' r hrely hinv hexec'
    obtain ⟨s', hR', hrely', hinv'⟩ := hmove s t t' hR hrely hinv
    obtain ⟨s'', hexec'', hback⟩ := hexec s' t' env o t'' r hR' hinv hexec'
    obtain ⟨hinv'', hk⟩ := h s' hrely' hinv' env r s'' hexec''
    obtain ⟨hR'', hinvt⟩ := hback hinv''
    exact ⟨hinvt, ih r hk hR''⟩

/-- A finished program is safe if its postcondition holds wherever the others may go. -/
theorem safe_done {a : α} (h : ∀ s', M.Rely s s' → M.Inv s' → Post a s') :
    M.Safe Post (done a) s := h

end Machine

end Program
