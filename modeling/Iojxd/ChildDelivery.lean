import Iojxd.ChildBlocks

/-!
# Each child is reported

If the kernel does not give out a pid while a watcher for it is active, and
watchers are started for children, then the log of the daemon is in order: each
watcher is called at most once for each start, with pid and status of its own
process, and when nothing is left to wait for, every process that has ended has
been reported.
-/

namespace Iojxd
namespace ChildReaper

open ChildTermination WaitStatus TransitionRun OneShot

abbrev Ledger := OneShot.Ledger Id (Option Nat) Report

/-- The watcher is active and waits for the pid. -/
def EvWatcher.watches (pid : Int) (x : EvWatcher) : Bool :=
  x.active && decide (x.event.pid = pid)

/-- No watcher waits for the pid. -/
def World.Unwatched (w : World) (pid : Int) : Prop :=
  (∀ k < w.spawned, (w.termcbs k).all fun x => !x.event.watches pid) ∧
    ∀ k < w.created, (w.childws k).all fun x => !x.event.watches pid

/-- The kernel gives out pids that nobody waits for, and watchers are started
with a callback, for a child that has not been waited for. -/
def Orderly (w : World) : Label → Prop
  | .fork pid => w.Unwatched pid
  | .spawn (some pid) _ => w.Unwatched pid
  | .start _ pid cb _ => (w.procs pid).child.isSome ∧ cb.isSome
  | _ => True

instance (w : World) (pid : Int) : Decidable (w.Unwatched pid) :=
  inferInstanceAs (Decidable (_ ∧ _))

instance (w : World) : (l : Label) → Decidable (Orderly w l)
  | .fork pid => inferInstanceAs (Decidable (w.Unwatched pid))
  | .spawn (some pid) _ => inferInstanceAs (Decidable (w.Unwatched pid))
  | .start _ _ _ _ => inferInstanceAs (Decidable (_ ∧ _))
  | .spawn none _ => isTrue trivial
  | .create => isTrue trivial
  | .free _ => isTrue trivial
  | .ends _ _ => isTrue trivial
  | .evRun => isTrue trivial
  | .reap _ => isTrue trivial
  | .callTermcb _ => isTrue trivial
  | .callChildw _ => isTrue trivial
  | .returns => isTrue trivial
  | .leaves => isTrue trivial

/-- What the processes have to do with the outcomes in the ledger. -/
structure Books (procs : Int → Proc) (forked : Nat)
    (outcome : Option Nat → Option Report) : Prop where
  pos : ∀ {pid}, procs pid ≠ .absent → 0 < pid
  fresh : ∀ {n}, forked ≤ n → outcome (some n) = none
  known : ∀ {pid n}, (procs pid).child = some n → n < forked
  running : ∀ {pid n}, procs pid = .running n → outcome (some n) = none
  zombie : ∀ {pid n e}, procs pid = .zombie n e →
    outcome (some n) = some (pid, e.raw)
  apart : ∀ {pid pid' n}, (procs pid).child = some n →
    (procs pid').child = some n → pid = pid'

/-- Where a watcher stands: for which process its listener waits, and what
became of that. -/
inductive Place (procs : Int → Proc) (outcome : Option Nat → Option Report)
    (x : EvWatcher) : Option (Option Nat) → Prop
  | rests (hactive : x.active = false) (hpending : x.pending = false) :
      Place procs outcome x none
  | waits {n : Nat} (hactive : x.active = true) (hpending : x.pending = false)
      (hchild : (procs x.event.pid).child = some n) :
      Place procs outcome x (some (some n))
  | due {n : Nat} (hactive : x.active = true) (hpending : x.pending = true)
      (hpid : 0 < x.event.pid) (hgone : procs x.event.pid = .absent)
      (houtcome : outcome (some n) = some (x.event.rpid, x.event.rstatus)) :
      Place procs outcome x (some (some n))
  | called (hactive : x.active = true) (hpending : x.pending = false)
      (hpid : 0 < x.event.pid) (hgone : procs x.event.pid = .absent) :
      Place procs outcome x none

/-- The watchers and the processes agree with the ledger. -/
structure Agrees (w : World) (r : Ledger) : Prop where
  log : run Ledger.step Ledger.init w.log = some r
  books : Books w.procs w.forked r.outcome
  noTermcb : ∀ {k}, w.termcbs k = none → r.waiting (.termcb k) = none
  termcb : ∀ {k x}, w.termcbs k = some x →
    k < w.spawned ∧ x.event.active = true ∧
      Place w.procs r.outcome x.event (r.waiting (.termcb k))
  frame : ∀ {k}, Frame.termcb k ∈ w.frames → r.waiting (.termcb k) = none
  noChildw : ∀ {k}, w.childws k = none → r.waiting (.childw k) = none
  childw : ∀ {k x}, w.childws k = some x →
    k < w.created ∧ (x.event.active = true → x.cb.isSome = true) ∧
      Place w.procs r.outcome x.event (r.waiting (.childw k))

/-! ## Processes -/

section Processes

variable {procs : Int → Proc} {forked : Nat}
variable {outcome : Option Nat → Option Report} {pid : Int} {n : Nat}

theorem Books.fork
    (h : Books procs forked outcome) (hpid : 0 < pid)
    (hp : procs pid = .absent) :
    Books (Function.update procs pid (.running forked)) (forked + 1) outcome where
  pos := by
    intro pid' hp'
    by_cases hne : pid' = pid
    · exact hne ▸ hpid
    · rw [Function.update_of_ne hne] at hp'
      exact h.pos hp'
  fresh := fun hn => h.fresh (Nat.le_of_succ_le hn)
  known := by
    intro pid' n' hp'
    by_cases hne : pid' = pid
    · subst hne
      rw [Function.update_self] at hp'
      cases hp'
      exact Nat.lt_succ_self _
    · rw [Function.update_of_ne hne] at hp'
      exact Nat.lt_succ_of_lt (h.known hp')
  running := by
    intro pid' n' hp'
    by_cases hne : pid' = pid
    · subst hne
      rw [Function.update_self] at hp'
      cases hp'
      exact h.fresh le_rfl
    · rw [Function.update_of_ne hne] at hp'
      exact h.running hp'
  zombie := by
    intro pid' n' e hp'
    by_cases hne : pid' = pid
    · subst hne
      rw [Function.update_self] at hp'
      cases hp'
    · rw [Function.update_of_ne hne] at hp'
      exact h.zombie hp'
  apart := by
    intro p q m hp' hq
    by_cases hpne : p = pid <;> by_cases hqne : q = pid
    · rw [hpne, hqne]
    · rw [hpne, Function.update_self] at hp'
      rw [Function.update_of_ne hqne] at hq
      cases hp'
      exact absurd (h.known hq) (Nat.lt_irrefl _)
    · rw [hqne, Function.update_self] at hq
      rw [Function.update_of_ne hpne] at hp'
      cases hq
      exact absurd (h.known hp') (Nat.lt_irrefl _)
    · rw [Function.update_of_ne hpne] at hp'
      rw [Function.update_of_ne hqne] at hq
      exact h.apart hp' hq

/-- The number of a process stays with its pid when it ends. -/
theorem child_finish
    (hp : procs pid = .running n) (e : ChildEnd) (pid' : Int) :
    (Function.update procs pid (.zombie n e) pid').child = (procs pid').child := by
  by_cases hne : pid' = pid
  · rw [hne, Function.update_self, hp]
    rfl
  · rw [Function.update_of_ne hne]

theorem Books.finish
    (h : Books procs forked outcome) (hp : procs pid = .running n)
    (e : ChildEnd) :
    Books (Function.update procs pid (.zombie n e)) forked
      (Function.update outcome (some n) (some (pid, e.raw))) where
  pos := by
    intro pid' hp'
    by_cases hne : pid' = pid
    · rw [hne]
      exact h.pos (by simp [hp])
    · rw [Function.update_of_ne hne] at hp'
      exact h.pos hp'
  fresh := by
    intro n' hn'
    have hlt : n < forked := h.known (by rw [hp]; rfl)
    rw [Function.update_of_ne]
    · exact h.fresh hn'
    · intro heq
      cases heq
      omega
  known := by
    intro pid' n' hp'
    rw [child_finish hp] at hp'
    exact h.known hp'
  running := by
    intro pid' n' hp'
    by_cases hne : pid' = pid
    · rw [hne, Function.update_self] at hp'
      cases hp'
    · rw [Function.update_of_ne hne] at hp'
      rw [Function.update_of_ne]
      · exact h.running hp'
      · intro heq
        cases heq
        exact hne (h.apart (by rw [hp']; rfl) (by rw [hp]; rfl))
  zombie := by
    intro pid' n' e' hp'
    by_cases hne : pid' = pid
    · subst hne
      rw [Function.update_self] at hp'
      cases hp'
      rw [Function.update_self]
    · rw [Function.update_of_ne hne] at hp'
      rw [Function.update_of_ne]
      · exact h.zombie hp'
      · intro heq
        cases heq
        exact hne (h.apart (by rw [hp']; rfl) (by rw [hp]; rfl))
  apart := by
    intro p q m hp' hq
    rw [child_finish hp] at hp' hq
    exact h.apart hp' hq

/-- What is left after a process has been waited for was there before. -/
theorem of_update_absent
    {pid' : Int} {p : Proc} (hp : p ≠ .absent)
    (h : Function.update procs pid .absent pid' = p) :
    pid' ≠ pid ∧ procs pid' = p := by
  by_cases hne : pid' = pid
  · rw [hne, Function.update_self] at h
    exact absurd h.symm hp
  · rw [Function.update_of_ne hne] at h
    exact ⟨hne, h⟩

theorem child_ne_absent {p : Proc} (h : p.child = some n) : p ≠ .absent := by
  rintro rfl
  cases h

theorem Books.reap (h : Books procs forked outcome) (pid : Int) :
    Books (Function.update procs pid .absent) forked outcome where
  pos := fun hp => h.pos (of_update_absent hp rfl |>.2 ▸ hp)
  fresh := h.fresh
  known := by
    intro pid' n' hp
    have hkept := (of_update_absent (child_ne_absent hp) rfl).2
    rw [← hkept] at hp
    exact h.known hp
  running := fun hp => h.running (of_update_absent Proc.noConfusion hp).2
  zombie := fun hp => h.zombie (of_update_absent Proc.noConfusion hp).2
  apart := by
    intro p q m hp hq
    have hkeptp := (of_update_absent (child_ne_absent hp) rfl).2
    have hkeptq := (of_update_absent (child_ne_absent hq) rfl).2
    rw [← hkeptp] at hp
    rw [← hkeptq] at hq
    exact h.apart hp hq

end Processes

/-! ## Places -/

section Places

variable {procs : Int → Proc} {forked : Nat}
variable {outcome : Option Nat → Option Report} {pid : Int} {n : Nat}
variable {x : EvWatcher} {waiting : Option (Option Nat)}

theorem Place.fork
    (h : Place procs outcome x waiting) (hx : x.watches pid = false) (m : Nat) :
    Place (Function.update procs pid (.running m)) outcome x waiting := by
  have hne : x.active = true → x.event.pid ≠ pid := by
    intro hactive heq
    simp [EvWatcher.watches, hactive, heq] at hx
  cases h with
  | rests hactive hpending => exact .rests hactive hpending
  | waits hactive hpending hchild =>
      apply Place.waits hactive hpending
      rw [Function.update_of_ne (hne hactive)]
      exact hchild
  | due hactive hpending hpid hgone houtcome =>
      refine .due hactive hpending hpid ?_ houtcome
      rw [Function.update_of_ne (hne hactive)]
      exact hgone
  | called hactive hpending hpid hgone =>
      refine .called hactive hpending hpid ?_
      rw [Function.update_of_ne (hne hactive)]
      exact hgone

theorem Place.finish
    (h : Place procs outcome x waiting) (hp : procs pid = .running n)
    (hn : outcome (some n) = none) (e : ChildEnd) :
    Place (Function.update procs pid (.zombie n e))
      (Function.update outcome (some n) (some (pid, e.raw))) x waiting := by
  have hne : procs x.event.pid = .absent → x.event.pid ≠ pid := by
    intro hgone heq
    rw [heq, hp] at hgone
    cases hgone
  cases h with
  | rests hactive hpending => exact .rests hactive hpending
  | waits hactive hpending hchild =>
      apply Place.waits hactive hpending
      rw [child_finish hp]
      exact hchild
  | @due m hactive hpending hpid hgone houtcome =>
      refine .due hactive hpending hpid ?_ ?_
      · rw [Function.update_of_ne (hne hgone)]
        exact hgone
      · rw [Function.update_of_ne]
        · exact houtcome
        · intro heq
          rw [heq, hn] at houtcome
          cases houtcome
  | called hactive hpending hpid hgone =>
      refine .called hactive hpending hpid ?_
      rw [Function.update_of_ne (hne hgone)]
      exact hgone

/-- Waiting for a process makes its watchers due. -/
theorem Place.reap
    {e : ChildEnd} (h : Place procs outcome x waiting)
    (hbooks : Books procs forked outcome) (hp : procs pid = .zombie n e) :
    Place (Function.update procs pid .absent) outcome (x.reap pid e.raw)
      waiting := by
  cases h with
  | rests hactive hpending =>
      have hkept : x.reap pid e.raw = x := by
        simp [EvWatcher.reap, hactive]
      rw [hkept]
      exact .rests hactive hpending
  | @waits m hactive hpending hchild =>
      by_cases heq : x.event.pid = pid
      · have hm : m = n := by
          rw [heq, hp] at hchild
          cases hchild
          rfl
        have hmarked : x.reap pid e.raw =
            ⟨⟨pid, pid, e.raw⟩, true, true⟩ := by
          simp [EvWatcher.reap, childReap, hactive, heq]
        rw [hmarked, hm]
        refine .due rfl rfl ?_ ?_ (hbooks.zombie hp)
        · exact hbooks.pos (by simp [hp])
        · exact Function.update_self ..
      · have hpos : 0 < x.event.pid := hbooks.pos (child_ne_absent hchild)
        rw [EvWatcher.reap_of_ne heq hpos]
        apply Place.waits hactive hpending
        rw [Function.update_of_ne heq]
        exact hchild
  | due hactive hpending hpid hgone houtcome =>
      have hne : x.event.pid ≠ pid := by
        intro heq
        rw [heq, hp] at hgone
        cases hgone
      rw [EvWatcher.reap_of_ne hne hpid]
      refine .due hactive hpending hpid ?_ houtcome
      rw [Function.update_of_ne hne]
      exact hgone
  | called hactive hpending hpid hgone =>
      have hne : x.event.pid ≠ pid := by
        intro heq
        rw [heq, hp] at hgone
        cases hgone
      rw [EvWatcher.reap_of_ne hne hpid]
      refine .called hactive hpending hpid ?_
      rw [Function.update_of_ne hne]
      exact hgone

/-- A watcher that is neither active nor pending has nothing to wait for. -/
theorem Place.waiting_of_rest
    (h : Place procs outcome x waiting) (hactive : x.active = false) :
    waiting = none := by
  cases h with
  | rests _ _ => rfl
  | waits h _ _ => simp [hactive] at h
  | due h _ _ _ _ => simp [hactive] at h
  | called h _ _ _ => rfl

/-- A pending watcher carries the report of its process. -/
theorem Place.due_of_pending
    (h : Place procs outcome x waiting) (hpending : x.pending = true) :
    ∃ n, waiting = some (some n) ∧ x.active = true ∧ 0 < x.event.pid ∧
      procs x.event.pid = .absent ∧
      outcome (some n) = some (x.event.rpid, x.event.rstatus) := by
  cases h with
  | rests _ h => simp [hpending] at h
  | waits _ h _ => simp [hpending] at h
  | due hactive _ hpid hgone houtcome =>
      exact ⟨_, rfl, hactive, hpid, hgone, houtcome⟩
  | called _ h _ _ => simp [hpending] at h

end Places

/-! ## Steps -/

section Steps

variable {w v : World} {r : Ledger} {l : Label}

/-- Steps that leave the ledger and the processes alone. -/
theorem Agrees.transport
    (h : Agrees w r) (hlog : v.log = w.log) (hprocs : v.procs = w.procs)
    (hforked : v.forked = w.forked) (htermcbs : v.termcbs = w.termcbs)
    (hspawned : v.spawned = w.spawned) (hchildws : v.childws = w.childws)
    (hcreated : v.created = w.created)
    (hframes : ∀ k, Frame.termcb k ∈ v.frames → Frame.termcb k ∈ w.frames) :
    Agrees v r where
  log := by rw [hlog]; exact h.log
  books := by rw [hprocs, hforked]; exact h.books
  noTermcb := by rw [htermcbs]; exact h.noTermcb
  termcb := by rw [htermcbs, hspawned, hprocs]; exact h.termcb
  frame := fun hk => h.frame (hframes _ hk)
  noChildw := by rw [hchildws]; exact h.noChildw
  childw := by rw [hchildws, hcreated, hprocs]; exact h.childw

theorem Agrees.fork
    (h : Agrees w r) {pid : Int} (hvacant : w.Vacant pid)
    (hfree : w.Unwatched pid) :
    Agrees (w.fork pid) r where
  log := h.log
  books := h.books.fork hvacant.1 hvacant.2
  noTermcb := h.noTermcb
  termcb := by
    intro k x hx
    obtain ⟨hk, hactive, hplace⟩ := h.termcb hx
    refine ⟨hk, hactive, hplace.fork ?_ _⟩
    have hall := hfree.1 k hk
    rw [show w.termcbs k = some x from hx] at hall
    simpa using hall
  frame := h.frame
  noChildw := h.noChildw
  childw := by
    intro k x hx
    obtain ⟨hk, hcb, hplace⟩ := h.childw hx
    refine ⟨hk, hcb, hplace.fork ?_ _⟩
    have hall := hfree.2 k hk
    rw [show w.childws k = some x from hx] at hall
    simpa using hall

/-- A watcher that waits for nothing is started. -/
theorem Agrees.logStart
    {log : List Event} (hlog : run Ledger.step Ledger.init log = some r)
    {k : Id} (n : Option Nat) (hk : r.waiting k = none) :
    run Ledger.step Ledger.init (log ++ [.started k n]) =
      some (r.start k n) :=
  Ledger.run_concat hlog (Ledger.step_started.mpr ⟨hk, rfl⟩)

theorem Agrees.addTermcb
    (h : Agrees w r) (hstage : w.StageOf w.spawned) {pid : Int} {n : Nat}
    (data : Nat) (hchild : (w.procs pid).child = some n) :
    Agrees (w.addTermcb pid data)
      (r.start (.termcb w.spawned) (some n)) := by
  have hunused : w.termcbs w.spawned = none ∧
      Frame.termcb w.spawned ∉ w.frames := by
    unfold World.StageOf at hstage
    rw [← List.count_eq_zero]
    generalize w.termcbs w.spawned = b at hstage
    generalize w.frames.count (.termcb w.spawned) = frames at hstage ⊢
    generalize (calls (.termcb w.spawned) w.log).length = called at hstage
    cases hstage with
    | unused h => exact ⟨rfl, rfl⟩
    | waits h hpid => exact absurd h (Nat.lt_irrefl _)
    | runs h hpid hpending => exact absurd h (Nat.lt_irrefl _)
    | freed h => exact absurd h (Nat.lt_irrefl _)
  constructor
  · rw [World.addTermcb_log, hchild]
    exact Agrees.logStart h.log _ (h.noTermcb hunused.1)
  · exact h.books
  · intro k hk
    rw [World.addTermcb_termcbs] at hk
    have hne : k ≠ w.spawned := by
      rintro rfl
      rw [Function.update_self] at hk
      cases hk
    rw [Function.update_of_ne hne] at hk
    rw [Ledger.start_waiting, Function.update_of_ne (by simpa using hne)]
    exact h.noTermcb hk
  · intro k x hx
    rw [World.addTermcb_termcbs] at hx
    rw [World.addTermcb_spawned, Ledger.start_waiting]
    by_cases hne : k = w.spawned
    · subst hne
      rw [Function.update_self] at hx
      cases hx
      rw [Function.update_self]
      exact ⟨Nat.lt_succ_self _, rfl, .waits rfl rfl hchild⟩
    · rw [Function.update_of_ne hne] at hx
      rw [Function.update_of_ne (by simpa using hne)]
      obtain ⟨hk, hrest⟩ := h.termcb hx
      exact ⟨Nat.lt_succ_of_lt hk, hrest⟩
  · intro k hk
    have hne : k ≠ w.spawned := by
      rintro rfl
      exact hunused.2 hk
    rw [Ledger.start_waiting, Function.update_of_ne (by simpa using hne)]
    exact h.frame hk
  · intro k hk
    rw [Ledger.start_waiting, Function.update_of_ne (by simp)]
    exact h.noChildw hk
  · intro k x hx
    rw [Ledger.start_waiting, Function.update_of_ne (by simp)]
    exact h.childw hx

theorem Agrees.childwCreate (h : Agrees w r) : Agrees w.childwCreate r where
  log := h.log
  books := h.books
  noTermcb := h.noTermcb
  termcb := h.termcb
  frame := h.frame
  noChildw := by
    intro k hk
    rw [World.childwCreate_childws] at hk
    by_cases hne : k = w.created
    · rw [hne, Function.update_self] at hk
      cases hk
    · rw [Function.update_of_ne hne] at hk
      exact h.noChildw hk
  childw := by
    intro k x hx
    rw [World.childwCreate_childws] at hx
    rw [World.childwCreate_created]
    by_cases hne : k = w.created
    · subst hne
      rw [Function.update_self] at hx
      cases hx
      have hnone : w.childws w.created = none := by
        cases hc : w.childws w.created with
        | none => rfl
        | some y => exact absurd (h.childw hc).1 (Nat.lt_irrefl _)
      rw [h.noChildw hnone]
      refine ⟨Nat.lt_succ_self _, by simp, .rests rfl rfl⟩
    · rw [Function.update_of_ne hne] at hx
      obtain ⟨hk, hrest⟩ := h.childw hx
      exact ⟨Nat.lt_succ_of_lt hk, hrest⟩

theorem Agrees.childwStart
    (h : Agrees w r) {k : Nat} {x : IxutChildWatcher} {pid : Int} {n : Nat}
    (cb : Option Nat) (data : Nat) (hx : w.childws k = some x)
    (hactive : x.event.active = false)
    (hchild : (w.procs pid).child = some n) (hcb : cb.isSome = true) :
    Agrees (w.childwStart k x pid cb data)
      (r.start (.childw k) (some n)) where
  log := by
    rw [World.childwStart_log, hchild]
    exact Agrees.logStart h.log _ ((h.childw hx).2.2.waiting_of_rest hactive)
  books := h.books
  noTermcb := by
    intro j hj
    rw [Ledger.start_waiting, Function.update_of_ne (by simp)]
    exact h.noTermcb hj
  termcb := by
    intro j y hy
    rw [Ledger.start_waiting, Function.update_of_ne (by simp)]
    exact h.termcb hy
  frame := by
    intro j hj
    rw [Ledger.start_waiting, Function.update_of_ne (by simp)]
    exact h.frame hj
  noChildw := by
    intro j hj
    rw [World.childwStart_childws] at hj
    have hne : j ≠ k := by
      rintro rfl
      rw [Function.update_self] at hj
      cases hj
    rw [Function.update_of_ne hne] at hj
    rw [Ledger.start_waiting, Function.update_of_ne (by simpa using hne)]
    exact h.noChildw hj
  childw := by
    intro j y hy
    rw [World.childwStart_childws] at hy
    rw [Ledger.start_waiting]
    by_cases hne : j = k
    · subst hne
      rw [Function.update_self] at hy
      cases hy
      rw [Function.update_self]
      exact ⟨(h.childw hx).1, fun _ => hcb, .waits rfl rfl hchild⟩
    · rw [Function.update_of_ne hne] at hy
      rw [Function.update_of_ne (by simpa using hne)]
      exact h.childw hy

theorem Agrees.childwFree
    (h : Agrees w r) {k : Nat} {x : IxutChildWatcher}
    (hx : w.childws k = some x) (hactive : x.event.active = false) :
    Agrees (w.childwFree k) r where
  log := h.log
  books := h.books
  noTermcb := h.noTermcb
  termcb := h.termcb
  frame := h.frame
  noChildw := by
    intro j hj
    by_cases hne : j = k
    · rw [hne]
      exact (h.childw hx).2.2.waiting_of_rest hactive
    · rw [World.childwFree_childws, Function.update_of_ne hne] at hj
      exact h.noChildw hj
  childw := by
    intro j y hy
    rw [World.childwFree_childws] at hy
    have hne : j ≠ k := by
      rintro rfl
      rw [Function.update_self] at hy
      cases hy
    rw [Function.update_of_ne hne] at hy
    exact h.childw hy

theorem Agrees.finish
    (h : Agrees w r) {pid : Int} {n : Nat} (hp : w.procs pid = .running n)
    (e : ChildEnd) :
    Agrees (w.finish pid n e) (Ledger.finish r (some n) (pid, e.raw)) where
  log := Ledger.run_concat h.log
    (Ledger.step_ended.mpr ⟨h.books.running hp, rfl⟩)
  books := h.books.finish hp e
  noTermcb := h.noTermcb
  termcb := by
    intro k x hx
    obtain ⟨hk, hactive, hplace⟩ := h.termcb hx
    exact ⟨hk, hactive, hplace.finish hp (h.books.running hp) e⟩
  frame := h.frame
  noChildw := h.noChildw
  childw := by
    intro k x hx
    obtain ⟨hk, hcb, hplace⟩ := h.childw hx
    exact ⟨hk, hcb, hplace.finish hp (h.books.running hp) e⟩

theorem EvWatcher.reap_active (x : EvWatcher) (pid : Int) (status : Word) :
    (x.reap pid status).active = x.active := by
  unfold EvWatcher.reap
  split_ifs <;> rfl

theorem Agrees.reap
    (h : Agrees w r) {pid : Int} {n : Nat} {e : ChildEnd}
    (hp : w.procs pid = .zombie n e) :
    Agrees (w.reap pid e) r where
  log := h.log
  books := h.books.reap pid
  noTermcb := fun hk => h.noTermcb (Option.map_eq_none_iff.mp hk)
  termcb := by
    intro k x hx
    obtain ⟨y, hy, rfl⟩ := Option.map_eq_some_iff.mp hx
    obtain ⟨hk, hactive, hplace⟩ := h.termcb hy
    refine ⟨hk, ?_, hplace.reap h.books hp⟩
    rw [EvWatcher.reap_active]
    exact hactive
  frame := h.frame
  noChildw := fun hk => h.noChildw (Option.map_eq_none_iff.mp hk)
  childw := by
    intro k x hx
    obtain ⟨y, hy, rfl⟩ := Option.map_eq_some_iff.mp hx
    obtain ⟨hk, hcb, hplace⟩ := h.childw hy
    refine ⟨hk, ?_, hplace.reap h.books hp⟩
    rw [EvWatcher.reap_active]
    exact hcb

theorem Agrees.termcbCalls
    (h : Agrees w r) {k : Nat} {x : Termcb} (hx : w.termcbs k = some x)
    (hpending : x.event.pending = true) :
    Agrees (w.termcbCalls k x) (r.settle (.termcb k)) := by
  obtain ⟨hk, hactive, hplace⟩ := h.termcb hx
  obtain ⟨n, hwaiting, -, hpid, hgone, houtcome⟩ :=
    hplace.due_of_pending hpending
  constructor
  · exact Ledger.run_concat h.log
      (Ledger.step_called.mpr ⟨⟨some n, hwaiting, houtcome⟩, rfl⟩)
  · exact h.books
  · intro j hj
    rw [World.termcbCalls_termcbs] at hj
    have hne : j ≠ k := by
      rintro rfl
      rw [Function.update_self] at hj
      cases hj
    rw [Function.update_of_ne hne] at hj
    rw [Ledger.settle_waiting, Function.update_of_ne (by simpa using hne)]
    exact h.noTermcb hj
  · intro j y hy
    rw [World.termcbCalls_termcbs] at hy
    rw [Ledger.settle_waiting]
    by_cases hne : j = k
    · subst hne
      rw [Function.update_self] at hy
      cases hy
      rw [Function.update_self]
      exact ⟨hk, hactive, .called hactive rfl hpid hgone⟩
    · rw [Function.update_of_ne hne] at hy
      rw [Function.update_of_ne (by simpa using hne)]
      exact h.termcb hy
  · intro j hj
    rw [Ledger.settle_waiting]
    by_cases hne : j = k
    · rw [hne, Function.update_self]
    · rw [Function.update_of_ne (by simpa using hne)]
      rw [World.termcbCalls_frames] at hj
      exact h.frame (by simpa [hne] using hj)
  · intro j hj
    rw [Ledger.settle_waiting, Function.update_of_ne (by simp)]
    exact h.noChildw hj
  · intro j y hy
    rw [Ledger.settle_waiting, Function.update_of_ne (by simp)]
    exact h.childw hy

theorem Agrees.childwCalls
    (h : Agrees w r) {k : Nat} {x : IxutChildWatcher}
    (hx : w.childws k = some x) (hpending : x.event.pending = true) :
    Agrees ((w.childwStops k x).childwCalls k x) (r.settle (.childw k)) := by
  obtain ⟨hk, hcb, hplace⟩ := h.childw hx
  obtain ⟨n, hwaiting, hactive, hpid, hgone, houtcome⟩ :=
    hplace.due_of_pending hpending
  constructor
  · exact Ledger.run_concat h.log
      (Ledger.step_called.mpr ⟨⟨some n, hwaiting, houtcome⟩, rfl⟩)
  · exact h.books
  · intro j hj
    rw [Ledger.settle_waiting, Function.update_of_ne (by simp)]
    exact h.noTermcb hj
  · intro j y hy
    rw [Ledger.settle_waiting, Function.update_of_ne (by simp)]
    exact h.termcb hy
  · intro j hj
    rw [Ledger.settle_waiting, Function.update_of_ne (by simp)]
    rw [World.childwCalls_frames] at hj
    exact h.frame (by simpa using hj)
  · intro j hj
    rw [World.childwCalls_childws, World.childwStops_childws] at hj
    have hne : j ≠ k := by
      rintro rfl
      rw [Function.update_self] at hj
      cases hj
    rw [Function.update_of_ne hne] at hj
    rw [Ledger.settle_waiting, Function.update_of_ne (by simpa using hne)]
    exact h.noChildw hj
  · intro j y hy
    rw [World.childwCalls_childws, World.childwStops_childws] at hy
    rw [Ledger.settle_waiting]
    by_cases hne : j = k
    · subst hne
      rw [Function.update_self] at hy
      cases hy
      rw [Function.update_self]
      refine ⟨hk, ?_, .rests rfl rfl⟩
      intro h'
      cases h'
    · rw [Function.update_of_ne hne] at hy
      rw [Function.update_of_ne (by simpa using hne)]
      exact h.childw hy

theorem Agrees.termcbFrees
    (h : Agrees w r) {k : Nat} {fs : List Frame}
    (hframes : w.frames = .termcb k :: fs) :
    Agrees (w.termcbFrees k fs) r where
  log := h.log
  books := h.books
  noTermcb := by
    intro j hj
    by_cases hne : j = k
    · rw [hne]
      exact h.frame (by simp [hframes])
    · rw [World.termcbFrees_termcbs, Function.update_of_ne hne] at hj
      exact h.noTermcb hj
  termcb := by
    intro j y hy
    rw [World.termcbFrees_termcbs] at hy
    have hne : j ≠ k := by
      rintro rfl
      rw [Function.update_self] at hy
      cases hy
    rw [Function.update_of_ne hne] at hy
    exact h.termcb hy
  frame := fun hj => h.frame (hframes ▸ List.mem_cons_of_mem _ hj)
  noChildw := h.noChildw
  childw := h.childw

/-- Orderly steps are steady. -/
theorem steady_of_agrees (h : Agrees w r) (hm : Move w l v) : Steady w l := by
  cases hm with
  | @reap pid n e hp hloop =>
      intro f hf
      cases f with
      | loop => rfl
      | childw k => rfl
      | termcb k =>
          rw [World.runsFor, Option.any_eq_false]
          intro x hx
          obtain ⟨-, hactive, hplace⟩ := h.termcb hx
          rw [h.frame hf] at hplace
          cases hplace with
          | rests hrest _ => simp [hactive] at hrest
          | called _ _ _ hgone =>
              rw [decide_eq_false_iff_not]
              rintro heq
              rw [heq, hp] at hgone
              cases hgone
  | _ => trivial

/-- **Step lemma**: what an orderly step does is in order. -/
theorem agrees_move
    (hm : Move w l v) (horderly : Orderly w l) (h : Agrees w r)
    (hstages : ∀ k, w.StageOf k) :
    ∃ r', Agrees v r' := by
  cases hm with
  | fork pid hvacant => exact ⟨r, h.fork hvacant horderly⟩
  | spawnFails data => exact ⟨r, h⟩
  | spawn pid data hvacant =>
      have hforked := h.fork hvacant horderly
      have hchild : ((w.fork pid).procs pid).child = some w.forked := by
        rw [World.fork_procs, Function.update_self]
        rfl
      exact ⟨_, hforked.addTermcb (hstages w.spawned) data hchild⟩
  | create => exact ⟨r, h.childwCreate⟩
  | start pid cb data hx hactive hpending =>
      obtain ⟨n, hchild⟩ := Option.isSome_iff_exists.mp horderly.1
      exact ⟨_, h.childwStart cb data hx hactive hchild horderly.2⟩
  | startAborts k pid cb data =>
      exact ⟨r, h.transport rfl rfl rfl rfl rfl rfl rfl fun _ hk => hk⟩
  | free hx hactive hpending => exact ⟨r, h.childwFree hx hactive⟩
  | freeAborts k =>
      exact ⟨r, h.transport rfl rfl rfl rfl rfl rfl rfl fun _ hk => hk⟩
  | ends e hp => exact ⟨_, h.finish hp e⟩
  | evRun hloop =>
      refine ⟨r, h.transport rfl rfl rfl rfl rfl rfl rfl fun k hk => ?_⟩
      simpa using hk
  | reap hp hloop => exact ⟨r, h.reap hp⟩
  | callTermcb hx hloop hpending => exact ⟨_, h.termcbCalls hx hpending⟩
  | callChildw hx hloop hpending hcb => exact ⟨_, h.childwCalls hx hpending⟩
  | skipChildw hx hpending hcb =>
      obtain ⟨-, hsome, hplace⟩ := h.childw hx
      obtain ⟨-, -, hactive, -⟩ := hplace.due_of_pending hpending
      simp [hcb] at hsome
      simp [hsome] at hactive
  | termcbFrees hframes hx => exact ⟨r, h.termcbFrees hframes⟩
  | termcbFreesAgain hframes hx =>
      refine ⟨r, h.transport rfl rfl rfl rfl rfl rfl rfl fun k hk => ?_⟩
      rw [hframes]
      exact List.mem_cons_of_mem _ hk
  | childwReturns hframes =>
      refine ⟨r, h.transport rfl rfl rfl rfl rfl rfl rfl fun k hk => ?_⟩
      rw [hframes]
      exact List.mem_cons_of_mem _ hk
  | leaves hframes =>
      refine ⟨r, h.transport rfl rfl rfl rfl rfl rfl rfl fun k hk => ?_⟩
      rw [hframes]
      exact List.mem_cons_of_mem _ hk

end Steps

theorem agrees_init : Agrees World.init OneShot.Ledger.init where
  log := rfl
  books :=
    { pos := fun hp => absurd rfl hp
      fresh := fun _ => rfl
      known := by rintro pid n ⟨⟩
      running := by rintro pid n ⟨⟩
      zombie := by rintro pid n e ⟨⟩
      apart := by rintro pid pid' n ⟨⟩ }
  noTermcb := fun _ => rfl
  termcb := by rintro k x ⟨⟩
  frame := by rintro k ⟨⟩
  noChildw := fun _ => rfl
  childw := by rintro k x ⟨⟩

/-- The loop has nothing to do. -/
structure World.Idle (w : World) : Prop where
  procs : ∀ pid n e, w.procs pid ≠ .zombie n e
  termcbs : ∀ k x, w.termcbs k = some x → x.event.pending = false
  childws : ∀ k x, w.childws k = some x → x.event.pending = false

/-- A watcher that still waits when the loop has nothing to do waits for a
running process. -/
theorem Place.running_of_idle
    {w : World} {r : Ledger} {x : EvWatcher} {n : Option Nat}
    (hbooks : Books w.procs w.forked r.outcome)
    (h : Place w.procs r.outcome x (some n)) (hidle : w.Idle)
    (hx : x.pending = false) :
    r.outcome n = none := by
  cases h with
  | waits _ _ hchild =>
      cases hp : w.procs x.event.pid with
      | absent =>
          rw [hp] at hchild
          cases hchild
      | running m =>
          rw [hp] at hchild
          cases hchild
          exact hbooks.running hp
      | zombie m e => exact absurd hp (hidle.procs _ _ _)
  | due _ hpending _ _ _ => simp [hx] at hpending

theorem Agrees.running_of_idle
    {w : World} {r : Ledger} (h : Agrees w r) (hidle : w.Idle) {k : Id}
    {n : Option Nat} (hk : r.waiting k = some n) :
    r.outcome n = none := by
  cases k with
  | termcb k =>
      cases hx : w.termcbs k with
      | none =>
          rw [h.noTermcb hx] at hk
          cases hk
      | some x =>
          have hplace := (h.termcb hx).2.2
          rw [hk] at hplace
          exact hplace.running_of_idle h.books hidle (hidle.termcbs k x hx)
  | childw k =>
      cases hx : w.childws k with
      | none =>
          rw [h.noChildw hx] at hk
          cases hk
      | some x =>
          have hplace := (h.childw hx).2.2
          rw [hk] at hplace
          exact hplace.running_of_idle h.books hidle (hidle.childws k x hx)

/-- **Every child is reported**: in every orderly run each watcher is called in
the order of its starts, at most once for each, with pid and status of the
process that it was started for.  At most the last start is still open, and once
the loop has nothing to do, its process is running.  No block is used that was
freed. -/
theorem children_reported
    {ls : List Label} {t : World}
    (horderly : EveryStep step (fun w l _ => Orderly w l) World.init ls)
    (hrun : run step World.init ls = some t) :
    t.usedFreed = false ∧
      ∀ k, ∃ answered waiting, starts k t.log = answered ++ waiting ∧
        waiting.length ≤ 1 ∧
        List.Forall₂ (fun n e => .ended n e ∈ t.log) answered
          (calls k t.log) ∧
        (t.Idle → ∀ n ∈ waiting, ∀ e, .ended n e ∉ t.log) := by
  have hend : (∃ r, Agrees t r) ∧ (∀ k, t.StageOf k) ∧ t.usedFreed = false := by
    refine run_invariant_of_everyStep
      (I := fun w => (∃ r, Agrees w r) ∧ (∀ k, w.StageOf k) ∧
        w.usedFreed = false) ?_
      ⟨⟨_, agrees_init⟩, stageOf_init, rfl⟩ horderly hrun
    rintro w l v ⟨⟨r, hr⟩, hstages, hfreed⟩ hv hl
    have hm := move_of_step hv
    exact ⟨agrees_move hm hl hr hstages,
      stages_move hm (steady_of_agrees hr hm) hstages hfreed⟩
  obtain ⟨⟨r, hr⟩, -, hfreed⟩ := hend
  refine ⟨hfreed, fun k => ?_⟩
  obtain ⟨answered, ha⟩ := answered_run k hr.log
  refine ⟨answered, (r.waiting k).toList, ha.starts, ?_, ?_, ?_⟩
  · cases r.waiting k <;> simp
  · exact ha.forall₂.imp fun n e he => (outcome_iff hr.log n e).mp he
  · intro hidle n hn e he
    have hk : r.waiting k = some n := Option.mem_toList.mp hn
    have hnone := hr.running_of_idle hidle hk
    rw [(outcome_iff hr.log n e).mpr he] at hnone
    cases hnone

/-- A spawned process and a forked one that is watched. -/
def sampleChildren : List Label :=
  [.spawn (some 7) 0, .create, .fork 9, .start 0 9 (some 1) 0,
    .ends 9 (.exited 1), .evRun, .reap 9, .callChildw 0, .returns,
    .ends 7 (.signaled SIGKILL false), .reap 7, .callTermcb 0, .returns]

theorem children_reported_two :
    ∃ t, run step World.init sampleChildren = some t ∧
      t.usedFreed = false ∧
      ∀ k, ∃ answered waiting, starts k t.log = answered ++ waiting ∧
        waiting.length ≤ 1 ∧
        List.Forall₂ (fun n e => .ended n e ∈ t.log) answered
          (calls k t.log) ∧
        (t.Idle → ∀ n ∈ waiting, ∀ e, .ended n e ∉ t.log) := by
  obtain ⟨t, ht⟩ := Option.isSome_iff_exists.mp
    (by decide : (run step World.init sampleChildren).isSome = true)
  exact ⟨t, ht, children_reported (by decide) ht⟩

end ChildReaper
end Iojxd
