/-
AircraftApi/ReadModel.lean

The search views and the refresh requests that say when they are stale.

Design.  What the views can show is a set of committed changes, one for each
decision that changes what is served and one for each import.  A rebuild
statement takes its snapshot when it begins and installs it when it gets the
views' exclusive lock, so the two are separate steps:

    decide                     commit a decision and its PENDING request
    list, beginRebuild, installRebuild, close      `refresh_and_settle`
    failRebuild, recordFailure                     its failure branch
    startImport, beginImportRebuild, lockImportRebuild, commitImport
                               an import, which rebuilds inside its own
                               transaction and keeps the lock until it ends
    crash                      the process dies, its transaction rolls back

A request is closed only after a rebuild that saw its decision was installed
(`closed_after_installed`, in every run).  The views can still be stale with
every request closed: a rebuild that waited installs its older snapshot over a
newer one (`late_install_hides_decision`).  The condition is that no install
loses a change the views already show (`NothingLost`), and with it every stale
change has its own open request (`staleness_recorded`).
-/
import AircraftApi.Transition
import Mathlib.Data.Finset.Basic
import Mathlib.Data.Finset.Insert

namespace AircraftApi

namespace ReadModel

open Transition

/-! ### The state -/

/-- A row of `read_model_refresh_requests`, numbered like the decision it was
enqueued with. -/
structure Request where
  id : ℕ
  completed : Bool
  attempts : ℕ
  lastError : Option String
  deriving DecidableEq

/-- Where a process stands, with the requests it listed and the snapshot of
its rebuild, or the change its import is about to commit. -/
inductive Proc
  | idle
  | listed (outstanding : List ℕ)
  | rebuilding (outstanding : List ℕ) (snapshot : Finset ℕ)
  | rebuilt (outstanding : List ℕ) (snapshot : Finset ℕ)
  | failed (outstanding : List ℕ)
  | importing (change : ℕ)
  | importRebuilding (change : ℕ) (snapshot : Finset ℕ)
  | importRebuilt (change : ℕ) (snapshot : Finset ℕ)
  deriving DecidableEq

/-- The committed changes, those the installed views show, the requests, every
snapshot installed so far, and who holds the views' exclusive lock. -/
structure State (ι : Type*) where
  committed : Finset ℕ
  next : ℕ
  views : Finset ℕ
  installed : List (Finset ℕ)
  requests : List Request
  procs : ι → Proc
  lock : Option ι

variable {ι : Type*}

/-- Nothing decided, nothing installed. -/
def State.init : State ι := ⟨∅, 0, ∅, [], [], fun _ => .idle, none⟩

/-! ### Statements -/

/-- `SELECT id … WHERE status_code = 'PENDING' ORDER BY id`. -/
def pending (requests : List Request) : List ℕ :=
  (requests.filter fun r => !r.completed).map Request.id

/-- `UPDATE … WHERE id = ANY($1) AND status_code = 'PENDING'`. -/
def updatePending (ids : List ℕ) (f : Request → Request) (requests : List Request) :
    List Request :=
  requests.map fun r => if r.id ∈ ids ∧ r.completed = false then f r else r

/-- The request is closed. -/
def Request.complete (r : Request) : Request := { r with completed := true }

/-- One more attempt failed. -/
def Request.fail (error : String) (r : Request) : Request :=
  { r with attempts := r.attempts + 1, lastError := some error }

/-! ### Steps -/

/-- A decision, or a step of a process that rebuilds. -/
inductive Action (ι : Type*)
  | decide (served : Bool)
  | list (p : ι)
  | beginRebuild (p : ι)
  | installRebuild (p : ι) (acknowledged : Bool)
  | failRebuild (p : ι)
  | recordFailure (p : ι) (error : String)
  | close (p : ι)
  | startImport (p : ι)
  | beginImportRebuild (p : ι)
  | lockImportRebuild (p : ι)
  | commitImport (p : ι)
  | crash (p : ι)

variable [DecidableEq ι]

/-- Moves a process. -/
def State.move (s : State ι) (p : ι) (q : Proc) : State ι :=
  { s with procs := Function.update s.procs p q }

/-- The views as of a snapshot. -/
def State.install (s : State ι) (snapshot : Finset ℕ) : State ι :=
  { s with views := snapshot, installed := snapshot :: s.installed }

/-- `decide_with` up to its commit; a decision that serves nothing new leaves
the views' inputs alone and enqueues nothing. -/
def decide (s : State ι) (served : Bool) : State ι :=
  if served then
    { s with
      committed := insert s.next s.committed
      next := s.next + 1
      requests := s.requests ++ [⟨s.next, false, 0, none⟩] }
  else s

/-- One step of the read model, if the action is enabled. -/
def step (s : State ι) : Action ι → Option (State ι)
  | .decide served => some (decide s served)
  | .list p =>
      match s.procs p with
      | .idle => some (if pending s.requests = [] then s
          else s.move p (.listed (pending s.requests)))
      | _ => none
  | .beginRebuild p =>
      match s.procs p with
      | .listed ids => some (s.move p (.rebuilding ids s.committed))
      | _ => none
  | .installRebuild p acknowledged =>
      match s.procs p, s.lock with
      | .rebuilding ids snapshot, none => some
          ((s.install snapshot).move p
            (if acknowledged then .rebuilt ids snapshot else .failed ids))
      | _, _ => none
  | .failRebuild p =>
      match s.procs p with
      | .rebuilding ids _ => some (s.move p (.failed ids))
      | _ => none
  | .recordFailure p error =>
      match s.procs p with
      | .failed ids => some
          { s.move p .idle with requests := updatePending ids (.fail error) s.requests }
      | _ => none
  | .close p =>
      match s.procs p with
      | .rebuilt ids _ => some
          { s.move p .idle with requests := updatePending ids .complete s.requests }
      | _ => none
  | .startImport p =>
      match s.procs p with
      | .idle => some { s.move p (.importing s.next) with next := s.next + 1 }
      | _ => none
  | .beginImportRebuild p =>
      match s.procs p with
      | .importing change => some
          (s.move p (.importRebuilding change (insert change s.committed)))
      | _ => none
  | .lockImportRebuild p =>
      match s.procs p, s.lock with
      | .importRebuilding change snapshot, none => some
          { s.move p (.importRebuilt change snapshot) with lock := some p }
      | _, _ => none
  | .commitImport p =>
      match s.procs p with
      | .importRebuilt change snapshot => some
          { (s.install snapshot).move p .idle with
            committed := insert change s.committed
            lock := none }
      | _ => none
  | .crash p => some { s.move p .idle with lock := if s.lock = some p then none else s.lock }

/-- The read model of any number of curators, refreshers and importers. -/
def system : System (State ι) (Action ι) := .ofStep .init step

/-! ### What a step changes -/

/-- What a process may rely on: the changes it listed are committed, then in
its snapshot, and its snapshot is installed once it says so; an import's
snapshot has its own change. -/
def Proc.Ok (committed : Finset ℕ) (installed : List (Finset ℕ)) : Proc → Prop
  | .listed ids => ∀ i ∈ ids, i ∈ committed
  | .rebuilding ids snapshot => ∀ i ∈ ids, i ∈ snapshot
  | .rebuilt ids snapshot => (∀ i ∈ ids, i ∈ snapshot) ∧ snapshot ∈ installed
  | .importRebuilding change snapshot => change ∈ snapshot
  | .importRebuilt change snapshot => change ∈ snapshot
  | _ => True

theorem Proc.Ok.mono {q : Proc} {committed committed' : Finset ℕ}
    {installed installed' : List (Finset ℕ)} (hc : committed ⊆ committed')
    (hi : installed ⊆ installed') (h : q.Ok committed installed) :
    q.Ok committed' installed' := by
  cases q with
  | listed ids => exact fun i hin => hc (h i hin)
  | rebuilt ids snapshot => exact ⟨h.1, hi h.2⟩
  | idle => trivial
  | rebuilding ids snapshot => exact h
  | failed ids => trivial
  | importing change => trivial
  | importRebuilding change snapshot => exact h
  | importRebuilt change snapshot => exact h

/-- Requests name committed decisions, and a closed one has been shown. -/
structure Inv (s : State ι) : Prop where
  procs : ∀ p, (s.procs p).Ok s.committed s.installed
  requested : ∀ r ∈ s.requests, r.id ∈ s.committed
  closed : ∀ r ∈ s.requests, r.completed → ∃ snapshot ∈ s.installed, r.id ∈ snapshot

omit [DecidableEq ι] in
theorem inv_init : Inv (State.init : State ι) where
  procs := fun _ => trivial
  requested := by simp [State.init]
  closed := by simp [State.init]

variable {s s' : State ι} {p : ι}

theorem ok_update {procs : ι → Proc} {q : Proc} {committed committed' : Finset ℕ}
    {installed installed' : List (Finset ℕ)} (h : ∀ p, (procs p).Ok committed installed)
    (hc : committed ⊆ committed') (hi : installed ⊆ installed')
    (hq : q.Ok committed' installed') (p' : ι) :
    (Function.update procs p q p').Ok committed' installed' := by
  by_cases hp : p' = p
  · subst hp
    rw [Function.update_self]
    exact hq
  · rw [Function.update_of_ne hp]
    exact (h p').mono hc hi

theorem mem_pending {requests : List Request} {i : ℕ} (h : i ∈ pending requests) :
    ∃ r ∈ requests, r.id = i ∧ r.completed = false := by
  obtain ⟨r, hr, rfl⟩ := List.mem_map.mp h
  obtain ⟨hmem, hopen⟩ := List.mem_filter.mp hr
  exact ⟨r, hmem, rfl, by simpa using hopen⟩

theorem Inv.move {q : Proc} (h : Inv s) (hq : q.Ok s.committed s.installed) :
    Inv (s.move p q) where
  procs := ok_update h.procs (fun _ => id) (fun _ => id) hq
  requested := h.requested
  closed := h.closed

theorem ids_updatePending {ids : List ℕ} {f : Request → Request} {requests : List Request}
    (hf : ∀ r, (f r).id = r.id) {r : Request} (hr : r ∈ updatePending ids f requests) :
    ∃ r' ∈ requests, r.id = r'.id ∧
      (r = r' ∨ r = f r' ∧ r'.id ∈ ids ∧ r'.completed = false) := by
  obtain ⟨r', hr', rfl⟩ := List.mem_map.mp hr
  split
  · rename_i hpending
    exact ⟨r', hr', hf r', .inr ⟨rfl, hpending⟩⟩
  · exact ⟨r', hr', rfl, .inl rfl⟩

/-- Recording a failure closes nothing. -/
theorem Inv.recordFailure {ids : List ℕ} {error : String} (h : Inv s) :
    Inv { s.move p .idle with requests := updatePending ids (.fail error) s.requests } where
  procs := ok_update h.procs (fun _ => id) (fun _ => id) trivial
  requested := by
    intro r hr
    obtain ⟨r', hr', hid, -⟩ := ids_updatePending (f := .fail error) (fun _ => rfl) hr
    exact hid ▸ h.requested r' hr'
  closed := by
    intro r hr hdone
    obtain ⟨r', hr', hid, hr' | ⟨rfl, -, hopen⟩⟩ := ids_updatePending (f := .fail error) (fun _ => rfl) hr
    · exact h.closed r (hr' ▸ ‹r' ∈ s.requests›) hdone
    · simp [Request.fail, hopen] at hdone

/-- What is closed was listed before the rebuild that is now installed. -/
theorem Inv.close {ids : List ℕ} {snapshot : Finset ℕ} (h : Inv s)
    (hseen : ∀ i ∈ ids, i ∈ snapshot) (hin : snapshot ∈ s.installed) :
    Inv { s.move p .idle with requests := updatePending ids .complete s.requests } where
  procs := ok_update h.procs (fun _ => id) (fun _ => id) trivial
  requested := by
    intro r hr
    obtain ⟨r', hr', hid, -⟩ := ids_updatePending (f := .complete) (fun _ => rfl) hr
    exact hid ▸ h.requested r' hr'
  closed := by
    intro r hr hdone
    obtain ⟨r', hr', hid, rfl | ⟨-, hmem, -⟩⟩ := ids_updatePending (f := .complete) (fun _ => rfl) hr
    · exact h.closed r hr' hdone
    · exact ⟨snapshot, hin, hid ▸ hseen _ hmem⟩

omit [DecidableEq ι] in
theorem Inv.decide {served : Bool} (h : Inv s) : Inv (decide s served) := by
  cases served with
  | false => exact h
  | true =>
      have hgrow : s.committed ⊆ insert s.next s.committed := Finset.subset_insert _ _
      refine ⟨fun p => (h.procs p).mono hgrow fun _ => id, fun r hr => ?_, fun r hr hdone => ?_⟩
      · rcases List.mem_append.mp hr with hr | hr
        · exact hgrow (h.requested r hr)
        · obtain rfl := List.mem_singleton.mp hr
          exact Finset.mem_insert_self _ _
      · rcases List.mem_append.mp hr with hr | hr
        · exact h.closed r hr hdone
        · obtain rfl := List.mem_singleton.mp hr
          cases hdone

theorem inv_step {act : Action ι} (h : Inv s) (hs : step s act = some s') : Inv s' := by
  cases act with
  | decide served =>
      obtain rfl := Option.some.inj hs
      exact h.decide
  | list p =>
      simp only [step] at hs
      split at hs
      · split at hs
        · obtain rfl := Option.some.inj hs
          exact h
        · obtain rfl := Option.some.inj hs
          refine h.move fun i hi => ?_
          -- the ids listed are of open requests, and those are of committed decisions
          obtain ⟨r, hr, rfl, -⟩ := mem_pending hi
          exact h.requested r hr
      · cases hs
  | beginRebuild p =>
      simp only [step] at hs
      split at hs
      · rename_i ids hp
        obtain rfl := Option.some.inj hs
        have hok := h.procs p
        rw [hp] at hok
        exact h.move hok
      · cases hs
  | installRebuild p acknowledged =>
      simp only [step] at hs
      split at hs
      · rename_i ids snapshot hp _
        obtain rfl := Option.some.inj hs
        have hok := h.procs p
        rw [hp] at hok
        -- what is installed now may already be old, but some installation had it
        refine ⟨ok_update h.procs (fun _ => id) (List.subset_cons_self _ _) ?_,
          h.requested, fun r hr hdone => ?_⟩
        · cases acknowledged with
          | true => exact ⟨hok, List.mem_cons_self⟩
          | false => trivial
        · obtain ⟨earlier, hin, hmem⟩ := h.closed r hr hdone
          exact ⟨earlier, List.mem_cons_of_mem _ hin, hmem⟩
      · cases hs
  | failRebuild p =>
      simp only [step] at hs
      split at hs
      · obtain rfl := Option.some.inj hs
        exact h.move trivial
      · cases hs
  | recordFailure p error =>
      simp only [step] at hs
      split at hs
      · obtain rfl := Option.some.inj hs
        exact h.recordFailure
      · cases hs
  | close p =>
      simp only [step] at hs
      split at hs
      · rename_i ids snapshot hp
        obtain rfl := Option.some.inj hs
        have hok := h.procs p
        rw [hp] at hok
        -- a request is closed by a process that has installed a rebuild with it
        exact h.close hok.1 hok.2
      · cases hs
  | startImport p =>
      simp only [step] at hs
      split at hs
      · obtain rfl := Option.some.inj hs
        exact ⟨ok_update h.procs (fun _ => id) (fun _ => id) trivial, h.requested, h.closed⟩
      · cases hs
  | beginImportRebuild p =>
      simp only [step] at hs
      split at hs
      · obtain rfl := Option.some.inj hs
        -- the import rebuilds from its own tables, its change among them
        exact h.move (Finset.mem_insert_self _ _)
      · cases hs
  | lockImportRebuild p =>
      simp only [step] at hs
      split at hs
      · rename_i change snapshot hp _
        obtain rfl := Option.some.inj hs
        have hok := h.procs p
        rw [hp] at hok
        exact ⟨ok_update h.procs (fun _ => id) (fun _ => id) hok, h.requested, h.closed⟩
      · cases hs
  | commitImport p =>
      simp only [step] at hs
      split at hs
      · obtain rfl := Option.some.inj hs
        have hgrow := Finset.subset_insert ‹ℕ› s.committed
        refine ⟨ok_update h.procs hgrow (List.subset_cons_self _ _) trivial,
          fun r hr => hgrow (h.requested r hr), fun r hr hdone => ?_⟩
        obtain ⟨earlier, hin, hmem⟩ := h.closed r hr hdone
        exact ⟨earlier, List.mem_cons_of_mem _ hin, hmem⟩
      · cases hs
  | crash p =>
      obtain rfl := Option.some.inj hs
      exact ⟨ok_update h.procs (fun _ => id) (fun _ => id) trivial, h.requested, h.closed⟩

theorem inv_of_reachable (hs : system.Reachable s) : Inv s :=
  hs.invariant (fun h => h ▸ inv_init) inv_step

/-- A request is closed only after a rebuild that saw its decision was
installed, in every run. -/
theorem closed_after_installed (hs : system.Reachable s) {r : Request}
    (hr : r ∈ s.requests) (hdone : r.completed) :
    ∃ snapshot ∈ s.installed, r.id ∈ snapshot :=
  (inv_of_reachable hs).closed r hr hdone

/-! ### Staleness -/

/-- No install loses a change the views already show. -/
def NothingLost (s : State ι) : Action ι → Prop
  | .installRebuild p _ => ∀ ids snapshot, s.procs p = .rebuilding ids snapshot →
      s.views ⊆ snapshot
  | .commitImport p => ∀ change snapshot, s.procs p = .importRebuilt change snapshot →
      s.views ⊆ snapshot
  | _ => True

/-- Every committed change is shown or has its own open request; whoever is
about to close requests has its snapshot shown. -/
structure Fresh (s : State ι) : Prop where
  recorded : ∀ x ∈ s.committed, x ∈ s.views ∨
    ∃ r ∈ s.requests, r.id = x ∧ r.completed = false
  shown : ∀ p ids snapshot, s.procs p = .rebuilt ids snapshot → snapshot ⊆ s.views

omit [DecidableEq ι] in
theorem fresh_init : Fresh (State.init : State ι) where
  recorded := by simp [State.init]
  shown := fun p ids snapshot h => by cases h

/-- Whoever had rebuilt before the step has its snapshot shown after it, as
long as the views only grow. -/
theorem shown_update {procs : ι → Proc} {q : Proc} {views views' : Finset ℕ}
    (h : ∀ p ids snapshot, procs p = .rebuilt ids snapshot → snapshot ⊆ views)
    (hgrow : views ⊆ views') (hq : ∀ ids snapshot, q = .rebuilt ids snapshot →
      snapshot ⊆ views') (p' : ι) (ids : List ℕ) (snapshot : Finset ℕ)
    (hp' : Function.update procs p q p' = .rebuilt ids snapshot) : snapshot ⊆ views' := by
  by_cases hp : p' = p
  · subst hp
    rw [Function.update_self] at hp'
    exact hq ids snapshot hp'
  · rw [Function.update_of_ne hp] at hp'
    exact (h p' ids snapshot hp').trans hgrow

/-- A move to anything but a finished rebuild. -/
theorem Fresh.move {q : Proc} (h : Fresh s) (hq : ∀ ids snapshot, q ≠ .rebuilt ids snapshot) :
    Fresh (s.move p q) where
  recorded := h.recorded
  shown := shown_update h.shown (fun _ => id) fun ids snapshot heq => absurd heq (hq ids snapshot)

omit [DecidableEq ι] in
/-- An install that loses nothing. -/
theorem recorded_install {snapshot : Finset ℕ} (h : Fresh s) (hlost : s.views ⊆ snapshot) :
    ∀ x ∈ s.committed, x ∈ snapshot ∨
      ∃ r ∈ s.requests, r.id = x ∧ r.completed = false := by
  intro x hx
  rcases h.recorded x hx with hview | hopen
  · exact .inl (hlost hview)
  · exact .inr hopen

theorem Fresh.recordFailure {ids : List ℕ} {error : String} (h : Fresh s) :
    Fresh { s.move p .idle with requests := updatePending ids (.fail error) s.requests } where
  recorded := by
    intro x hx
    rcases h.recorded x hx with hview | ⟨r, hr, hid, hopen⟩
    · exact .inl hview
    · refine .inr ⟨_, List.mem_map_of_mem hr, ?_⟩
      split
      · exact ⟨hid, hopen⟩
      · exact ⟨hid, hopen⟩
  shown := shown_update h.shown (fun _ => id) fun ids snapshot heq => by cases heq

/-- Closing the requests a shown snapshot has seen. -/
theorem Fresh.close {ids : List ℕ} {snapshot : Finset ℕ} (h : Fresh s)
    (hseen : ∀ i ∈ ids, i ∈ snapshot) (hshown : snapshot ⊆ s.views) :
    Fresh { s.move p .idle with requests := updatePending ids .complete s.requests } where
  recorded := by
    intro x hx
    by_cases hmem : x ∈ ids
    · exact .inl (hshown (hseen x hmem))
    · rcases h.recorded x hx with hview | ⟨r, hr, rfl, hopen⟩
      · exact .inl hview
      · exact .inr ⟨r, List.mem_map.mpr ⟨r, hr, if_neg fun hin => hmem hin.1⟩, rfl, hopen⟩
  shown := shown_update h.shown (fun _ => id) fun ids snapshot heq => by cases heq

omit [DecidableEq ι] in
theorem Fresh.decide {served : Bool} (h : Fresh s) : Fresh (ReadModel.decide s served) := by
  cases served with
  | false => exact h
  | true =>
      refine ⟨fun x hx => ?_, h.shown⟩
      rcases Finset.mem_insert.mp hx with rfl | hx
      · -- the decision's own request commits with it
        exact .inr ⟨⟨s.next, false, 0, none⟩, List.mem_append_right _ List.mem_cons_self,
          rfl, rfl⟩
      · rcases h.recorded x hx with hview | ⟨r, hr, hid, hopen⟩
        · exact .inl hview
        · exact .inr ⟨r, List.mem_append_left _ hr, hid, hopen⟩

theorem fresh_step {act : Action ι} (hi : Inv s) (h : Fresh s) (hg : NothingLost s act)
    (hs : step s act = some s') : Fresh s' := by
  cases act with
  | decide served =>
      obtain rfl := Option.some.inj hs
      exact h.decide
  | list p =>
      simp only [step] at hs
      split at hs
      · split at hs
        · obtain rfl := Option.some.inj hs
          exact h
        · obtain rfl := Option.some.inj hs
          exact h.move fun ids snapshot heq => by cases heq
      · cases hs
  | beginRebuild p =>
      simp only [step] at hs
      split at hs
      · obtain rfl := Option.some.inj hs
        exact h.move fun ids snapshot heq => by cases heq
      · cases hs
  | installRebuild p acknowledged =>
      simp only [step] at hs
      split at hs
      · rename_i ids snapshot hp _
        obtain rfl := Option.some.inj hs
        -- the step is allowed only where the rebuild is not behind what is shown
        have hlost := hg ids snapshot hp
        refine ⟨fun x hx => recorded_install h hlost x hx, shown_update h.shown hlost ?_⟩
        intro ids' snapshot' heq
        cases acknowledged with
        | true =>
            obtain ⟨-, rfl⟩ := Proc.rebuilt.inj heq
            exact fun _ => id
        | false => cases heq
      · cases hs
  | failRebuild p =>
      simp only [step] at hs
      split at hs
      · obtain rfl := Option.some.inj hs
        exact h.move fun ids snapshot heq => by cases heq
      · cases hs
  | recordFailure p error =>
      simp only [step] at hs
      split at hs
      · obtain rfl := Option.some.inj hs
        exact h.recordFailure
      · cases hs
  | close p =>
      simp only [step] at hs
      split at hs
      · rename_i ids snapshot hp
        obtain rfl := Option.some.inj hs
        have hok := hi.procs p
        rw [hp] at hok
        exact h.close hok.1 (h.shown p ids snapshot hp)
      · cases hs
  | startImport p =>
      simp only [step] at hs
      split at hs
      · obtain rfl := Option.some.inj hs
        exact ⟨h.recorded, shown_update h.shown (fun _ => id) fun ids snapshot heq => by cases heq⟩
      · cases hs
  | beginImportRebuild p =>
      simp only [step] at hs
      split at hs
      · obtain rfl := Option.some.inj hs
        exact h.move fun ids snapshot heq => by cases heq
      · cases hs
  | lockImportRebuild p =>
      simp only [step] at hs
      split at hs
      · obtain rfl := Option.some.inj hs
        exact ⟨h.recorded, shown_update h.shown (fun _ => id) fun ids snapshot heq => by cases heq⟩
      · cases hs
  | commitImport p =>
      simp only [step] at hs
      split at hs
      · rename_i change snapshot hp
        obtain rfl := Option.some.inj hs
        -- so is an import, which shows its own change on top
        have hlost := hg change snapshot hp
        have hok := hi.procs p
        rw [hp] at hok
        refine ⟨fun x hx => ?_, shown_update h.shown hlost fun ids snapshot heq => by cases heq⟩
        rcases Finset.mem_insert.mp hx with rfl | hx
        · exact .inl hok
        · exact recorded_install h hlost x hx
      · cases hs
  | crash p =>
      obtain rfl := Option.some.inj hs
      exact ⟨h.recorded, shown_update h.shown (fun _ => id) fun ids snapshot heq => by cases heq⟩

theorem fresh_of_reachable (hs : (system.guard NothingLost).Reachable s) :
    Inv s ∧ Fresh s := by
  induction hs with
  | init hs => exact hs ▸ ⟨inv_init, fresh_init⟩
  | step _ hst ih => exact ⟨inv_step ih.1 hst.2, fresh_step ih.1 ih.2 hst.1 hst.2⟩

/-- **Staleness is recorded** in every run whose installs lose nothing: views
that miss a committed change leave its request open, and a request is closed
only after a rebuild that saw its decision was installed. -/
theorem staleness_recorded (hs : (system.guard NothingLost).Reachable s) :
    (∀ x ∈ s.committed, x ∉ s.views → ∃ r ∈ s.requests, r.id = x ∧ r.completed = false) ∧
    ∀ r ∈ s.requests, r.completed → ∃ snapshot ∈ s.installed, r.id ∈ snapshot := by
  have hfresh := (fresh_of_reachable hs).2
  refine ⟨fun x hx hstale => ?_, fun r hr hdone => closed_after_installed hs.of_guard hr hdone⟩
  exact (hfresh.recorded x hx).resolve_left hstale

/-- A decision whose refresh fails, then an import and another decision. -/
def failedRefresh : List (Action ℕ) :=
  [.decide true, .list 0, .beginRebuild 0, .failRebuild 0, .recordFailure 0 "lock timeout",
    .startImport 1, .decide true]

def refreshFailed : State ℕ := (exec step .init failedRefresh).getD .init

/-- The first decision is not shown, and its request is still open. -/
theorem staleness_recorded_refreshFailed :
    ∃ r ∈ refreshFailed.requests, r.id = 0 ∧ r.completed = false :=
  have hreachable : (system.guard NothingLost).Reachable refreshFailed :=
    reachable_guard_of_exec failedRefresh (by simp [failedRefresh, NothingLost]) rfl
  (staleness_recorded hreachable).1 0 (by decide) (by decide)

/-! ### A late install -/

/-- The first refresher's rebuild waits while the second one's is installed. -/
def lateInstall : List (Action ℕ) :=
  [.decide true, .list 0, .beginRebuild 0, .decide true, .list 1, .beginRebuild 1,
    .installRebuild 1 true, .close 1, .installRebuild 0 true, .close 0]

/-- The views end without the second decision and every request is closed. -/
theorem late_install_hides_decision :
    ¬ ∀ s : State ℕ, system.Reachable s →
      (s.committed ≠ s.views → ∃ r ∈ s.requests, r.completed = false) ∧
      ∀ r ∈ s.requests, r.completed → ∃ snapshot ∈ s.installed, r.id ∈ snapshot := by
  intro hclaim
  obtain ⟨s, hs, hviews, hclosed⟩ : ∃ s, exec step State.init lateInstall = some s ∧
      s.committed ≠ s.views ∧ ∀ r ∈ s.requests, r.completed = true :=
    ⟨_, rfl, by decide, by decide⟩
  obtain ⟨r, hr, hopen⟩ := (hclaim s (reachable_of_exec _ hs)).1 hviews
  rw [hclosed r hr] at hopen
  cases hopen

end ReadModel

end AircraftApi
