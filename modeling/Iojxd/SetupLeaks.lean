import Iojxd.ConnectOutcome

/-!
# Attempts that fail

A socket whose type is unknown may be set up again, so an attempt that fails may
be repeated.  This module follows any sequence of failing attempts and counts
what the socket holds after each.

Every attempt allocates a watcher and keeps it; what `socket(2)` opened stays
open, and where `connect(2)` fails at once the connect arguments stay as well.
-/

namespace Iojxd
namespace Setup

open TransitionRun

/-- An attempt that fails, with the results of its system calls. -/
inductive FailedAttempt where
  /-- `bind(2)` fails -/
  | bind (fd : Option Int)
  /-- `connect(2)` fails at once -/
  | connect (fd : Option Int) (evArgs : IxfdConnectArgs) (r : ConnectResult)
      (refused : r.accepted = false)
  /-- after deliveries without `EV_WRITE`, one reports an error -/
  | completion (fd : Int) (evArgs : IxfdConnectArgs) (r : ConnectResult)
      (accepted : r.accepted = true) (quiet : List Getsockopt)
      (g : Getsockopt) (error : g.reportsError = true)

namespace FailedAttempt

/-- What `socket(2)` opened. -/
def opened : FailedAttempt → List Int
  | bind fd => fd.toList
  | connect fd _ _ _ => fd.toList
  | completion fd _ _ _ _ _ _ => [fd]

/-- Whether `connect(2)` failed at once. -/
def isRefused : FailedAttempt → Bool
  | connect _ _ _ _ => true
  | _ => false

end FailedAttempt

/-- An attempt that fails; both functions assert that the type is unknown. -/
def tryOnce (w : World) (a : FailedAttempt) : Option World :=
  if w.type = .unknown then
    match a with
    | .bind fd => some (ixfdCommonsockTcpCreatenbind w fd false)
    | .connect fd evArgs r _ =>
        some (ixfdCommonsockTcpCreatenconnect w fd evArgs r)
    | .completion fd evArgs r _ quiet g _ =>
        run (deliver w.watchers.length)
          (ixfdCommonsockTcpCreatenconnect w fd evArgs r)
          (quiet.map (Delivery.mk false) ++ [⟨true, g⟩])
  else none

/-- The socket holds nothing in `t` beyond what it held in `w`. -/
structure NoMoreHeld (w t : World) : Prop where
  descriptors : t.descriptors.Subperm w.descriptors
  watchers : t.watchers.length ≤ w.watchers.length
  args : t.liveArgs ≤ w.liveArgs

/-- What a failing attempt that began in `w` leaves in `t`. -/
structure Leaves (w t : World) (opened : List Int) (tries refused : Nat) :
    Prop where
  type : t.type = .unknown
  descriptors : t.descriptors = w.descriptors ++ opened
  watchers : t.watchers.length = w.watchers.length + tries
  args : t.liveArgs = w.liveArgs + refused

namespace Leaves

theorem nothing
    {w : World}
    (hw : w.type = .unknown) :
    Leaves w w [] 0 0 where
  type := hw
  descriptors := by simp
  watchers := by simp
  args := by simp

theorem trans
    {w m t : World} {ks ls : List Int} {i j p q : Nat}
    (h : Leaves w m ks i p)
    (h' : Leaves m t ls j q) :
    Leaves w t (ks ++ ls) (i + j) (p + q) where
  type := h'.type
  descriptors := by rw [h'.descriptors, h.descriptors, List.append_assoc]
  watchers := by rw [h'.watchers, h.watchers, Nat.add_assoc]
  args := by rw [h'.args, h.args, Nat.add_assoc]

theorem holds_more
    {w t : World} {ls : List Int} {n q : Nat}
    (h : Leaves w t ls (n + 1) q) :
    ¬ NoMoreHeld w t := by
  intro hheld
  have hle := hheld.watchers
  rw [h.watchers] at hle
  omega

end Leaves

/-! ## One attempt -/

/-- Deliveries without `EV_WRITE` change nothing. -/
theorem run_quiet
    {w : World} {fd : Option Int} {evArgs : IxfdConnectArgs} {r : ConnectResult}
    (hr : r.accepted = true)
    (quiet : List Getsockopt) (ds : List Delivery) :
    run (deliver w.watchers.length)
        (ixfdCommonsockTcpCreatenconnect w fd evArgs r)
        (quiet.map (Delivery.mk false) ++ ds) =
      run (deliver w.watchers.length)
        (ixfdCommonsockTcpCreatenconnect w fd evArgs r) ds := by
  induction quiet with
  | nil => rfl
  | cons g quiet ih =>
      rw [List.map_cons, List.cons_append, run_cons, deliver_createnconnect,
        if_pos hr, connectCb_quiet _ _ _ _ _ _ rfl, Option.bind_some]
      exact ih

section Attempt

variable {w : World} (hw : w.type = .unknown)
include hw

theorem leaves_bind
    (fd : Option Int) :
    Leaves w (ixfdCommonsockTcpCreatenbind w fd false) fd.toList 1 0 where
  type := hw
  descriptors := rfl
  watchers := by
    simp [ixfdCommonsockTcpCreatenbind, World.openSocket]
  args := rfl

/-- What the call of `connect(2)` itself leaves, whatever its result. -/
theorem leaves_createnconnect
    (fd : Option Int) (evArgs : IxfdConnectArgs) (r : ConnectResult) :
    Leaves w (ixfdCommonsockTcpCreatenconnect w fd evArgs r) fd.toList 1 1 where
  type := (createnconnect_kept w fd evArgs r).1.trans hw
  descriptors := (createnconnect_kept w fd evArgs r).2.2
  watchers := by simp [createnconnect_watcher]
  args := by simp [World.liveArgs, createnconnect_args]

/-- The delivery that reports an error frees the arguments. -/
theorem leaves_completion
    (fd : Option Int) (evArgs : IxfdConnectArgs) {r : ConnectResult}
    {g : Getsockopt}
    (hr : r.accepted = true)
    (herr : g.reportsError = true) :
    Leaves w (completed w fd evArgs r g) fd.toList 1 0 where
  type := (completed_reports w fd evArgs r g hr herr).2.2.trans hw
  descriptors := completed_descriptors w fd evArgs r g
  watchers := by simp [completed_watchers]
  args := by simp [World.liveArgs, completed_args]

/-- **Step lemma**: what one failing attempt leaves. -/
theorem leaves_tryOnce
    (a : FailedAttempt) :
    ∃ t, tryOnce w a = some t ∧ Leaves w t a.opened 1 a.isRefused.toNat := by
  unfold tryOnce
  rw [if_pos hw]
  cases a with
  | bind fd => exact ⟨_, rfl, leaves_bind hw fd⟩
  | connect fd evArgs r refused =>
      exact ⟨_, rfl, leaves_createnconnect hw fd evArgs r⟩
  | completion fd evArgs r accepted quiet g error =>
      refine ⟨_, ?_, leaves_completion hw fd evArgs accepted error⟩
      simp only
      rw [run_quiet accepted, run_cons, deliver_createnconnect, if_pos accepted]
      rfl

end Attempt

/-! ## Any sequence of attempts -/

/-- **Run lemma**: every sequence of failing attempts can be run, and what its
attempts leave adds up. -/
theorem leaves_run
    {w : World}
    (hw : w.type = .unknown)
    (as : List FailedAttempt) :
    ∃ t, run tryOnce w as = some t ∧
      Leaves w t (as.flatMap FailedAttempt.opened) as.length
        (as.countP FailedAttempt.isRefused) := by
  induction as generalizing w with
  | nil => exact ⟨w, rfl, Leaves.nothing hw⟩
  | cons a as ih =>
      obtain ⟨m, hm, hone⟩ := leaves_tryOnce hw a
      obtain ⟨t, ht, hrest⟩ := ih hone.type
      refine ⟨t, by rw [run_cons, hm, Option.bind_some, ht], ?_⟩
      have hall := hone.trans hrest
      have hcount : a.isRefused.toNat + as.countP FailedAttempt.isRefused =
          (a :: as).countP FailedAttempt.isRefused := by
        rw [List.countP_cons, Nat.add_comm]
        cases a.isRefused <;> rfl
      rw [List.flatMap_cons, List.length_cons, ← hcount, Nat.add_comm as.length]
      exact hall

/-- No attempt of a sequence leaves the socket as it was. -/
theorem every_attempt_holds_more
    {w : World}
    (hw : w.type = .unknown)
    (as : List FailedAttempt) :
    EveryStep tryOnce (fun s _ t => ¬ NoMoreHeld s t) w as := by
  induction as generalizing w with
  | nil => trivial
  | cons a as ih =>
      obtain ⟨m, hm, hone⟩ := leaves_tryOnce hw a
      exact everyStep_cons_of_some hm hone.holds_more (ih hone.type)

/-- **A failed attempt never leaves the socket as it was**: every sequence of
failing attempts can be run, every one of them leaves more than the socket held
before it, and the descriptors that were opened are all open at the end. -/
theorem failed_setup_accumulates
    {w : World}
    (hw : w.type = .unknown)
    (as : List FailedAttempt) :
    (∃ t, run tryOnce w as = some t ∧
      Leaves w t (as.flatMap FailedAttempt.opened) as.length
        (as.countP FailedAttempt.isRefused)) ∧
      EveryStep tryOnce (fun s _ t => ¬ NoMoreHeld s t) w as ∧
      (EveryStep tryOnce (fun s _ t => NoMoreHeld s t) w as ↔ as = []) := by
  refine ⟨leaves_run hw as, every_attempt_holds_more hw as, ?_⟩
  constructor
  · intro h
    cases as with
    | nil => rfl
    | cons a as =>
        obtain ⟨m, hm, hone⟩ := leaves_tryOnce hw a
        exact absurd (h m hm).1 hone.holds_more
  · rintro rfl
    trivial

/-- Two addresses that cannot be bound, then a connection that is refused. -/
theorem failed_setup_accumulates_sample :
    ∃ t, run tryOnce World.created
        [.bind (some 7), .bind (some 8),
          .completion 9 ⟨true, true⟩ ⟨-1, EINPROGRESS⟩ rfl [] ⟨true, 111⟩ rfl] =
        some t ∧
      Leaves World.created t [7, 8, 9] 3 0 :=
  (failed_setup_accumulates rfl
    [.bind (some 7), .bind (some 8),
      .completion 9 ⟨true, true⟩ ⟨-1, EINPROGRESS⟩ rfl [] ⟨true, 111⟩ rfl]).1

/-- `bind(2)` fails on a new socket: its descriptor stays open and its watcher
stays allocated. -/
theorem failed_bind_holds_more :
    ∃ t, tryOnce World.created (.bind (some 7)) = some t ∧
      t.descriptors = [7] ∧ t.watchers.length = 1 ∧
      ¬ NoMoreHeld World.created t := by
  refine ⟨_, rfl, rfl, rfl, ?_⟩
  intro h
  exact absurd h.watchers (by decide)

end Setup
end Iojxd
