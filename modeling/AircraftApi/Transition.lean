/-
AircraftApi/Transition.lean

Labelled transition systems, the common ground of every protocol model of
the development: which states a system reaches, how an invariant is carried
along a run, and what becomes of a system when its runs are restricted to
the steps that meet a guard.

    S.Reachable t         some run of `S` ends in `t`
    S.Steps s t           some run of `S` leads from `s` to `t`
    S.guard G             the system whose steps are those of `S` meeting `G`
    ofStep init step      the system of a partial step function
    exec step s as        the state after the labels `as`, if none is refused
    execWhile step p s as the same, if each of them passes the test `p`
    after, transcript     a machine that answers every label, and its answers

The guard is how a conditional result about runs is stated: "in every run
whose steps all meet `G`" is reachability in `S.guard G`.
-/
import Mathlib.Logic.Relation
import Mathlib.Tactic.Common

namespace Transition

variable {σ α : Type*}

/-- A labelled transition system: its initial states and its steps. -/
structure System (σ α : Type*) where
  init : σ → Prop
  step : σ → α → σ → Prop

namespace System

variable {S : System σ α}

/-- The states some finite run of the system ends in. -/
inductive Reachable (S : System σ α) : σ → Prop
  | init {s} : S.init s → Reachable S s
  | step {s a t} : Reachable S s → S.step s a t → Reachable S t

/-- **Invariant rule**: what holds initially and is kept by every step holds
of every reachable state. -/
theorem Reachable.invariant {P : σ → Prop} (h₀ : ∀ {s}, S.init s → P s)
    (hstep : ∀ {s a t}, P s → S.step s a t → P t) {t : σ}
    (ht : S.Reachable t) : P t := by
  induction ht with
  | init hs => exact h₀ hs
  | step _ hst ih => exact hstep ih hst

/-- Some finite run leads from one state to the other. -/
def Steps (S : System σ α) : σ → σ → Prop :=
  Relation.ReflTransGen fun s t => ∃ a, S.step s a t

theorem Reachable.steps {s t : σ} (hs : S.Reachable s) (hst : S.Steps s t) :
    S.Reachable t := by
  induction hst with
  | refl => exact hs
  | tail _ hstep ih =>
      obtain ⟨a, ha⟩ := hstep
      exact ih.step ha

/-- **Stability rule**: what every step from a reachable state keeps, every
run from one keeps. -/
theorem Reachable.stable {P : σ → Prop}
    (hstep : ∀ {s a t}, S.Reachable s → S.step s a t → P s → P t) {s t : σ}
    (hs : S.Reachable s) (hst : S.Steps s t) (h : P s) : P t := by
  induction hst with
  | refl => exact h
  | tail hrun hlast ih =>
      obtain ⟨a, ha⟩ := hlast
      exact hstep (hs.steps hrun) ha ih

/-! ### Guarded systems -/

/-- The system whose steps are those of `S` that meet the guard. -/
def guard (S : System σ α) (G : σ → α → Prop) : System σ α where
  init := S.init
  step := fun s a t => G s a ∧ S.step s a t

/-- A guarded run is a run. -/
theorem Reachable.of_guard {G : σ → α → Prop} {t : σ}
    (ht : (S.guard G).Reachable t) : S.Reachable t := by
  induction ht with
  | init hs => exact .init hs
  | step _ hst ih => exact .step ih hst.2

/-! ### Systems of a partial step function -/

/-- The system of a step function; a label the function refuses has no step. -/
def ofStep (init : σ) (step : σ → α → Option σ) : System σ α where
  init := fun s => s = init
  step := fun s a t => step s a = some t

end System

/-- Runs a list of labels, stopping with `none` at the first refused one. -/
def exec (step : σ → α → Option σ) : σ → List α → Option σ
  | s, [] => some s
  | s, a :: as => (step s a).bind fun t => exec step t as

theorem exec_append (step : σ → α → Option σ) (s : σ) (as bs : List α) :
    exec step s (as ++ bs) = (exec step s as).bind fun t => exec step t bs := by
  induction as generalizing s with
  | nil => rfl
  | cons a as ih =>
      show ((step s a).bind fun t => exec step t (as ++ bs)) = _
      rw [exec, Option.bind_assoc]
      exact congrArg _ (funext ih)

theorem exec_append_singleton {step : σ → α → Option σ} {s t : σ} {as : List α} {a : α}
    (h : exec step s (as ++ [a]) = some t) :
    ∃ u, exec step s as = some u ∧ step u a = some t := by
  rw [exec_append] at h
  obtain ⟨u, hu, hlast⟩ := Option.bind_eq_some_iff.mp h
  obtain ⟨v, hv, hnil⟩ := Option.bind_eq_some_iff.mp hlast
  exact ⟨u, hu, hv.trans hnil⟩

/-- Where a list of labels leads is reachable under a guard that lets each
of them through. -/
theorem reachable_guard_of_exec {step : σ → α → Option σ} {init t : σ}
    {G : σ → α → Prop} (as : List α) (hG : ∀ a ∈ as, ∀ s, G s a)
    (h : exec step init as = some t) :
    ((System.ofStep init step).guard G).Reachable t := by
  have aux : ∀ {s}, ((System.ofStep init step).guard G).Reachable s →
      exec step s as = some t → ((System.ofStep init step).guard G).Reachable t := by
    clear h
    induction as with
    | nil =>
        intro s hs h
        exact Option.some.inj h ▸ hs
    | cons a as ih =>
        intro s hs h
        obtain ⟨u, hu, hrest⟩ := Option.bind_eq_some_iff.mp h
        exact ih (fun b hb => hG b (List.mem_cons_of_mem _ hb))
          (hs.step ⟨hG a List.mem_cons_self s, hu⟩) hrest
  exact aux (.init rfl) h

/-- Where a list of labels leads is reachable. -/
theorem reachable_of_exec {step : σ → α → Option σ} {init t : σ} (as : List α)
    (h : exec step init as = some t) : (System.ofStep init step).Reachable t :=
  (reachable_guard_of_exec (G := fun _ _ => True) as (fun _ _ _ => trivial) h).of_guard

/-- Where a list of labels leads from a reachable state is reachable. -/
theorem System.Reachable.exec {step : σ → α → Option σ} {init s t : σ} {as : List α}
    (hs : (System.ofStep init step).Reachable s) (h : exec step s as = some t) :
    (System.ofStep init step).Reachable t := by
  induction as generalizing s with
  | nil => exact Option.some.inj h ▸ hs
  | cons a as ih =>
      obtain ⟨u, hu, hrest⟩ := Option.bind_eq_some_iff.mp h
      exact ih (hs.step hu) hrest

/-- Runs a list of labels as long as each passes a test. -/
def execWhile (step : σ → α → Option σ) (test : σ → α → Bool) : σ → List α → Option σ
  | s, [] => some s
  | s, a :: as => if test s a then (step s a).bind fun t => execWhile step test t as else none

/-- Where a list of labels that pass leads is reachable under the guard they
pass. -/
theorem reachable_guard_of_execWhile {step : σ → α → Option σ} {init t : σ} {G : σ → α → Prop}
    {test : σ → α → Bool} (hG : ∀ s a, test s a = true → G s a) (as : List α)
    (h : execWhile step test init as = some t) :
    ((System.ofStep init step).guard G).Reachable t := by
  have aux : ∀ {s}, ((System.ofStep init step).guard G).Reachable s →
      execWhile step test s as = some t → ((System.ofStep init step).guard G).Reachable t := by
    clear h
    induction as with
    | nil =>
        intro s hs h
        exact Option.some.inj h ▸ hs
    | cons a as ih =>
        intro s hs h
        rw [execWhile] at h
        split_ifs at h with htest
        obtain ⟨u, hu, hrest⟩ := Option.bind_eq_some_iff.mp h
        exact ih (hs.step ⟨hG s a htest, hu⟩) hrest
  exact aux (.init rfl) h

/-! ### Machines that answer -/

section Answering

variable {β : Type*}

/-- The state after a list of labels. -/
def after (step : σ → α → σ × β) (s : σ) (as : List α) : σ :=
  as.foldl (fun s a => (step s a).1) s

/-- The labels, each with its answer. -/
def transcript (step : σ → α → σ × β) : σ → List α → List (α × β)
  | _, [] => []
  | s, a :: as => (a, (step s a).2) :: transcript step (step s a).1 as

variable {step : σ → α → σ × β}

@[simp] theorem after_nil (s : σ) : after step s [] = s := rfl

@[simp] theorem transcript_nil (s : σ) : transcript step s [] = [] := rfl

theorem after_append_singleton (s : σ) (as : List α) (a : α) :
    after step s (as ++ [a]) = (step (after step s as) a).1 := by
  simp [after]

theorem transcript_append_singleton (s : σ) (as : List α) (a : α) :
    transcript step s (as ++ [a])
      = transcript step s as ++ [(a, (step (after step s as) a).2)] := by
  induction as generalizing s with
  | nil => rfl
  | cons b as ih => exact congrArg (_ :: ·) (ih _)

/-- What every step answers, from any state, a run answers throughout. -/
theorem forall_mem_transcript {P : α → β → Prop} (hstep : ∀ s a, P a (step s a).2) {s : σ}
    {as : List α} : ∀ entry ∈ transcript step s as, P entry.1 entry.2 := by
  induction as generalizing s with
  | nil => exact fun _ h => absurd h List.not_mem_nil
  | cons a as ih => exact List.forall_mem_cons.mpr ⟨hstep s a, ih⟩

/-- What every step keeps, every run keeps. -/
theorem after_invariant {P : σ → Prop} (hstep : ∀ s a, P s → P (step s a).1) {s : σ}
    (hs : P s) (as : List α) : P (after step s as) := by
  induction as generalizing s with
  | nil => exact hs
  | cons a as ih => exact ih (hstep s a hs)

/-- **Simulation rule**: two machines that answer each label alike and stay related
answer a run alike. -/
theorem transcript_simulates {τ : Type*} {step' : τ → α → τ × β} {R : σ → τ → Prop}
    {as : List α} (hstep : ∀ {s t a}, a ∈ as → R s t →
      R (step s a).1 (step' t a).1 ∧ (step s a).2 = (step' t a).2)
    {s : σ} {t : τ} (h : R s t) :
    transcript step s as = transcript step' t as ∧ R (after step s as) (after step' t as) := by
  induction as generalizing s t with
  | nil => exact ⟨rfl, h⟩
  | cons a as ih =>
      obtain ⟨hnext, hanswer⟩ := hstep List.mem_cons_self h
      obtain ⟨hrest, hafter⟩ := ih (fun hb => hstep (List.mem_cons_of_mem _ hb)) hnext
      refine ⟨?_, hafter⟩
      rw [transcript, transcript, hanswer, hrest]

end Answering

end Transition
