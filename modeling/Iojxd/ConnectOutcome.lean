import Iojxd.SetupModel

/-!
# The outcome of a connect attempt

A connect attempt is the call of `ixfd_commonsock_tcp_createnconnect` and the
deliveries of its watcher that follow.  `Truthful` says what the application may
expect of an attempt: one report, which agrees with what the two system calls
gave, and a watcher and arguments that are done with afterwards.

There are three kinds of attempts.  Where `connect(2)` fails at once no delivery
follows; otherwise the watcher waits for a delivery with `EV_WRITE`, and the
first one ends the attempt.
-/

namespace Iojxd
namespace Setup

open TransitionRun

/-- The record of calls starts anew. -/
@[simps] def World.recording (w : World) : World :=
  { w with calls := [] }

/-- An attempt and the deliveries of its watcher, with a record of their
calls. -/
def connectAttempt (w : World) (fd : Option Int) (evArgs : IxfdConnectArgs)
    (r : ConnectResult) (ds : List Delivery) : Option World :=
  if w.type = .unknown then
    run (deliver w.watchers.length)
      (ixfdCommonsockTcpCreatenconnect w.recording fd evArgs r) ds
  else none

/-- A delivery with `EV_WRITE` finds the connection established. -/
def Succeeded (ds : List Delivery) : Prop :=
  ∃ d ∈ ds, d.write = true ∧ d.sockopt.Clean

/-- `connect(2)` fails at once, or a delivery with `EV_WRITE` does not find the
connection established. -/
def Failed (r : ConnectResult) (ds : List Delivery) : Prop :=
  r.accepted = false ∨ ∃ d ∈ ds, d.write = true ∧ ¬ d.sockopt.Clean

/-- What the application may expect of an attempt that began in `w` and has led
to `t`. -/
structure Truthful (w : World) (evArgs : IxfdConnectArgs) (r : ConnectResult)
    (ds : List Delivery) (t : World) : Prop where
  once : t.calls.count .cbConn + t.calls.count .cbFailed ≤ 1
  success_iff : Call.cbConn ∈ t.calls ↔ evArgs.cbConn = true ∧ Succeeded ds
  context_iff : t.defaultCtx = true ↔ w.defaultCtx = true ∨ Succeeded ds
  type_iff : t.type = .tcp ↔ Succeeded ds
  failure_iff : Call.cbFailed ∈ t.calls ↔ evArgs.cbFailed = true ∧ Failed r ds
  stopped : Succeeded ds ∨ Failed r ds →
    (t.watchers[w.watchers.length]?).map EvIo.active = some false
  released : Succeeded ds ∨ Failed r ds →
    t.calls.count (.freeArgs w.args.length) = 1

/-! ## The callback of the watcher -/

section Callback

variable (w : World) (i a : Nat) (w_ : EvIo)
variable (args : IxfdConnectArgs) (d : Delivery)

theorem connectCb_quiet
    (hquiet : d.write = false) :
    ixfdCommonsockConnectCb w i w_ a args d = w := by
  simp [ixfdCommonsockConnectCb, hquiet]

theorem connectCb_watchers
    (hwrite : d.write = true) :
    (ixfdCommonsockConnectCb w i w_ a args d).watchers =
      w.watchers.set i { w_ with active := false } := by
  simp only [ixfdCommonsockConnectCb, hwrite, if_true]
  split
  · split <;> rfl
  · split <;> rfl

theorem connectCb_args
    (hwrite : d.write = true) :
    (ixfdCommonsockConnectCb w i w_ a args d).args = w.args.set a none := by
  simp only [ixfdCommonsockConnectCb, hwrite, if_true]
  split
  · split <;> rfl
  · split <;> rfl

theorem connectCb_descriptors :
    (ixfdCommonsockConnectCb w i w_ a args d).descriptors = w.descriptors := by
  unfold ixfdCommonsockConnectCb
  split
  · split
    · split <;> rfl
    · split <;> rfl
  · rfl

/-- A pending error is reported to the failure callback. -/
theorem connectCb_reports
    (hwrite : d.write = true)
    (herr : d.sockopt.reportsError = true) :
    (ixfdCommonsockConnectCb w i w_ a args d).calls =
        w.calls ++ (if args.cbFailed then [Call.cbFailed] else []) ++
          [Call.freeArgs a] ∧
      (ixfdCommonsockConnectCb w i w_ a args d).defaultCtx = w.defaultCtx ∧
      (ixfdCommonsockConnectCb w i w_ a args d).type = w.type := by
  simp only [ixfdCommonsockConnectCb, hwrite, herr, if_true]
  split
  · exact ⟨rfl, rfl, rfl⟩
  · exact ⟨by simp [World.call], rfl, rfl⟩

/-- Everything else is reported as success. -/
theorem connectCb_connects
    (hwrite : d.write = true)
    (herr : d.sockopt.reportsError = false) :
    (ixfdCommonsockConnectCb w i w_ a args d).calls =
        w.calls ++ (if args.cbConn then [Call.cbConn] else []) ++
          [Call.freeArgs a] ∧
      (ixfdCommonsockConnectCb w i w_ a args d).defaultCtx = true ∧
      (ixfdCommonsockConnectCb w i w_ a args d).type = .tcp := by
  have hno : ¬ d.sockopt.reportsError = true := by
    simp [herr]
  simp only [ixfdCommonsockConnectCb, hwrite, if_true, if_neg hno]
  split
  · exact ⟨rfl, rfl, rfl⟩
  · exact ⟨by simp [World.call], rfl, rfl⟩

end Callback

/-- An attempt whose watcher gets its delivery with `EV_WRITE`. -/
def completed (w : World) (fd : Option Int) (evArgs : IxfdConnectArgs)
    (r : ConnectResult) (g : Getsockopt) : World :=
  ixfdCommonsockConnectCb (ixfdCommonsockTcpCreatenconnect w fd evArgs r)
    w.watchers.length ⟨fd.getD (-1), r.accepted, some w.args.length⟩
    w.args.length evArgs ⟨true, g⟩

section Completed

variable (w : World) (fd : Option Int) (evArgs : IxfdConnectArgs)
variable (r : ConnectResult) (g : Getsockopt)

theorem completed_watchers :
    (completed w fd evArgs r g).watchers =
      w.watchers ++ [⟨fd.getD (-1), false, some w.args.length⟩] := by
  rw [completed, connectCb_watchers _ _ _ _ _ _ rfl, createnconnect_watcher,
    List.set_append_right _ _ (le_refl _), Nat.sub_self, List.set_cons_zero]

theorem completed_args :
    (completed w fd evArgs r g).args = w.args ++ [none] := by
  rw [completed, connectCb_args _ _ _ _ _ _ rfl, createnconnect_args,
    List.set_append_right _ _ (le_refl _), Nat.sub_self, List.set_cons_zero]

theorem completed_descriptors :
    (completed w fd evArgs r g).descriptors = w.descriptors ++ fd.toList := by
  rw [completed, connectCb_descriptors]
  exact (createnconnect_kept w fd evArgs r).2.2

theorem completed_stopped :
    ((completed w fd evArgs r g).watchers[w.watchers.length]?).map
      EvIo.active = some false := by
  rw [completed_watchers, List.getElem?_concat_length]
  rfl

/-- A pending error is reported to the failure callback. -/
theorem completed_reports
    (hr : r.accepted = true)
    (herr : g.reportsError = true) :
    (completed w fd evArgs r g).calls =
        w.calls ++ (if evArgs.cbFailed then [Call.cbFailed] else []) ++
          [Call.freeArgs w.args.length] ∧
      (completed w fd evArgs r g).defaultCtx = w.defaultCtx ∧
      (completed w fd evArgs r g).type = w.type := by
  obtain ⟨hcalls, hctx, htype⟩ := connectCb_reports
    (ixfdCommonsockTcpCreatenconnect w fd evArgs r) w.watchers.length
    w.args.length ⟨fd.getD (-1), r.accepted, some w.args.length⟩ evArgs
    ⟨true, g⟩ rfl herr
  obtain ⟨htype', hctx', -⟩ := createnconnect_kept w fd evArgs r
  refine ⟨?_, hctx.trans hctx', htype.trans htype'⟩
  rw [completed, hcalls, createnconnect_calls]
  simp [hr]

/-- Everything else is reported as success. -/
theorem completed_connects
    (hr : r.accepted = true)
    (herr : g.reportsError = false) :
    (completed w fd evArgs r g).calls =
        w.calls ++ (if evArgs.cbConn then [Call.cbConn] else []) ++
          [Call.freeArgs w.args.length] ∧
      (completed w fd evArgs r g).defaultCtx = true ∧
      (completed w fd evArgs r g).type = .tcp := by
  obtain ⟨hcalls, hctx, htype⟩ := connectCb_connects
    (ixfdCommonsockTcpCreatenconnect w fd evArgs r) w.watchers.length
    w.args.length ⟨fd.getD (-1), r.accepted, some w.args.length⟩ evArgs
    ⟨true, g⟩ rfl herr
  refine ⟨?_, hctx, htype⟩
  rw [completed, hcalls, createnconnect_calls]
  simp [hr]

end Completed

/-! ## The three kinds of attempts -/

section Shapes

variable {w t : World} {fd : Option Int} {evArgs : IxfdConnectArgs}
variable {r : ConnectResult} {ds : List Delivery}

/-- No delivery follows on a watcher that is not active. -/
theorem no_delivery
    {i : Nat} {w_ : EvIo}
    (hwatcher : w.watchers[i]? = some w_)
    (hstopped : w_.active = false)
    (hrun : run (deliver i) w ds = some t) :
    ds = [] ∧ t = w := by
  cases ds with
  | nil =>
      rw [run_nil] at hrun
      cases hrun
      exact ⟨rfl, rfl⟩
  | cons d ds =>
      obtain ⟨m, hm, -⟩ := run_cons_success _ hrun
      have hnone : deliver i w d = none := by
        simp only [deliver, hwatcher, hstopped]
        split
        · split <;> rfl
        · rfl
      rw [hnone] at hm
      cases hm

/-- The deliveries of an accepted attempt: none has `EV_WRITE`, or only the last
one has. -/
theorem accepted_shapes
    (hr : r.accepted = true)
    (hrun : run (deliver w.watchers.length)
      (ixfdCommonsockTcpCreatenconnect w fd evArgs r) ds = some t) :
    ((∀ d ∈ ds, d.write = false) ∧
        t = ixfdCommonsockTcpCreatenconnect w fd evArgs r) ∨
      ∃ quiet g, (∀ d ∈ quiet, d.write = false) ∧
        ds = quiet ++ [⟨true, g⟩] ∧
        t = completed w fd evArgs r g := by
  induction ds with
  | nil =>
      rw [run_nil] at hrun
      cases hrun
      exact Or.inl ⟨by simp, rfl⟩
  | cons d ds ih =>
      obtain ⟨m, hm, htail⟩ := run_cons_success _ hrun
      rw [deliver_createnconnect, if_pos hr] at hm
      obtain rfl := Option.some.inj hm
      obtain ⟨write, g⟩ := d
      cases write with
      | false =>
          -- the delivery changes nothing, and the rest of the run decides
          rw [connectCb_quiet _ _ _ _ _ _ rfl] at htail
          rcases ih htail with ⟨hquiet, rfl⟩ | ⟨quiet, g', hquiet, rfl, rfl⟩
          · exact Or.inl ⟨by simpa using hquiet, rfl⟩
          · exact Or.inr
              ⟨⟨false, g⟩ :: quiet, g', by simpa using hquiet, rfl, rfl⟩
      | true =>
          -- the callback stops the watcher
          have hwatcher : (completed w fd evArgs r
              g).watchers[w.watchers.length]? =
                some ⟨fd.getD (-1), false, some w.args.length⟩ := by
            rw [completed_watchers, List.getElem?_concat_length]
          obtain ⟨rfl, rfl⟩ := no_delivery hwatcher rfl htail
          exact Or.inr ⟨[], g, by simp, rfl, rfl⟩

/-- A refused attempt has no deliveries. -/
theorem refused_shape
    (hr : r.accepted = false)
    (hrun : run (deliver w.watchers.length)
      (ixfdCommonsockTcpCreatenconnect w fd evArgs r) ds = some t) :
    ds = [] ∧ t = ixfdCommonsockTcpCreatenconnect w fd evArgs r := by
  have hwatcher : (ixfdCommonsockTcpCreatenconnect w fd evArgs
      r).watchers[w.watchers.length]? =
        some ⟨fd.getD (-1), r.accepted, some w.args.length⟩ := by
    rw [createnconnect_watcher, List.getElem?_concat_length]
  exact no_delivery hwatcher hr hrun

end Shapes

/-! ## What each kind reports -/

section Reports

variable {quiet : List Delivery} {g : Getsockopt} {r : ConnectResult}

theorem not_succeeded_quiet
    (hquiet : ∀ d ∈ quiet, d.write = false) :
    ¬ Succeeded quiet := by
  rintro ⟨d, hd, hwrite, -⟩
  rw [hquiet d hd] at hwrite
  cases hwrite

theorem not_failed_quiet
    (hr : r.accepted = true)
    (hquiet : ∀ d ∈ quiet, d.write = false) :
    ¬ Failed r quiet := by
  rintro (hrefused | ⟨d, hd, hwrite, -⟩)
  · rw [hr] at hrefused
    cases hrefused
  · rw [hquiet d hd] at hwrite
    cases hwrite

theorem succeeded_completed_iff
    (hquiet : ∀ d ∈ quiet, d.write = false) :
    Succeeded (quiet ++ [⟨true, g⟩]) ↔ g.Clean := by
  constructor
  · rintro ⟨d, hd, hwrite, hclean⟩
    rcases List.mem_append.mp hd with hd | hd
    · exact absurd ⟨d, hd, hwrite, hclean⟩ (not_succeeded_quiet hquiet)
    · obtain rfl := List.mem_singleton.mp hd
      exact hclean
  · intro hclean
    exact ⟨⟨true, g⟩, by simp, rfl, hclean⟩

theorem failed_completed_iff
    (hr : r.accepted = true)
    (hquiet : ∀ d ∈ quiet, d.write = false) :
    Failed r (quiet ++ [⟨true, g⟩]) ↔ ¬ g.Clean := by
  constructor
  · rintro (hrefused | ⟨d, hd, hwrite, hbad⟩)
    · rw [hr] at hrefused
      cases hrefused
    · rcases List.mem_append.mp hd with hd | hd
      · exact absurd (Or.inr ⟨d, hd, hwrite, hbad⟩)
          (not_failed_quiet hr hquiet)
      · obtain rfl := List.mem_singleton.mp hd
        exact hbad
  · intro hbad
    exact Or.inr ⟨⟨true, g⟩, by simp, rfl, hbad⟩

end Reports

section Attempts

variable {w : World}
variable (fd : Option Int) (evArgs : IxfdConnectArgs) {r : ConnectResult}
variable {quiet : List Delivery} {g : Getsockopt}

/-- An attempt that waits has reported nothing. -/
theorem truthful_waiting
    (hw : w.type = .unknown)
    (hr : r.accepted = true)
    (hquiet : ∀ d ∈ quiet, d.write = false) :
    Truthful w evArgs r quiet
      (ixfdCommonsockTcpCreatenconnect w.recording fd evArgs r) := by
  have hsucc := not_succeeded_quiet hquiet
  have hfail := not_failed_quiet hr hquiet
  have hcalls : (ixfdCommonsockTcpCreatenconnect w.recording fd
      evArgs r).calls = [] := by
    simp [createnconnect_calls, hr]
  obtain ⟨htype, hctx, -⟩ :=
    createnconnect_kept w.recording fd evArgs r
  exact
    { once := by simp [hcalls]
      success_iff := by simp [hcalls, hsucc]
      context_iff := by simp [hctx, hsucc]
      type_iff := by simp [htype, hw, hsucc]
      failure_iff := by simp [hcalls, hfail]
      stopped := fun h => absurd h (not_or.mpr ⟨hsucc, hfail⟩)
      released := fun h => absurd h (not_or.mpr ⟨hsucc, hfail⟩) }

/-- A refused attempt keeps its arguments. -/
theorem not_truthful_refused
    (hr : r.accepted = false) :
    ¬ Truthful w evArgs r []
      (ixfdCommonsockTcpCreatenconnect w.recording fd evArgs r) := by
  intro h
  have hreleased := h.released (Or.inr (Or.inl hr))
  rw [createnconnect_calls] at hreleased
  cases hf : evArgs.cbFailed with
  | false => simp [hf] at hreleased
  | true => simp [hr, hf] at hreleased

/-- A pending error is told as it is. -/
theorem truthful_reports
    (hw : w.type = .unknown)
    (hr : r.accepted = true)
    (hquiet : ∀ d ∈ quiet, d.write = false)
    (herr : g.reportsError = true) :
    Truthful w evArgs r (quiet ++ [⟨true, g⟩])
      (completed w.recording fd evArgs r g) := by
  have hpending := (g.reportsError_iff.mp herr).2
  have hbad : ¬ g.Clean := by
    simp [Getsockopt.clean_iff, hpending]
  have hsucc : ¬ Succeeded (quiet ++ [⟨true, g⟩]) :=
    mt (succeeded_completed_iff hquiet).mp hbad
  have hfail : Failed r (quiet ++ [⟨true, g⟩]) :=
    (failed_completed_iff hr hquiet).mpr hbad
  obtain ⟨hcalls, hctx, htype⟩ :=
    completed_reports w.recording fd evArgs r g hr herr
  simp only [World.recording_calls, List.nil_append, World.recording_args]
    at hcalls
  exact
    { once := by
        rw [hcalls]
        cases evArgs.cbFailed <;> simp
      success_iff := by
        rw [hcalls]
        cases evArgs.cbFailed <;> simp [hsucc]
      context_iff := by simp [hctx, hsucc]
      type_iff := by simp [htype, hw, hsucc]
      failure_iff := by
        rw [hcalls]
        cases evArgs.cbFailed <;> simp [hfail]
      stopped := fun _ => completed_stopped w.recording fd evArgs r g
      released := fun _ => by
        rw [hcalls]
        cases evArgs.cbFailed <;> simp }

/-- Success is reported where `getsockopt(2)` finds no error, and where it
fails. -/
theorem truthful_connects_iff
    (hr : r.accepted = true)
    (hquiet : ∀ d ∈ quiet, d.write = false)
    (herr : g.reportsError = false) :
    Truthful w evArgs r (quiet ++ [⟨true, g⟩])
        (completed w.recording fd evArgs r g) ↔
      g.Clean := by
  obtain ⟨hcalls, hctx, htype⟩ :=
    completed_connects w.recording fd evArgs r g hr herr
  constructor
  · intro h
    exact (succeeded_completed_iff hquiet).mp (h.type_iff.mp htype)
  · intro hclean
    have hsucc : Succeeded (quiet ++ [⟨true, g⟩]) :=
      (succeeded_completed_iff hquiet).mpr hclean
    have hfail : ¬ Failed r (quiet ++ [⟨true, g⟩]) :=
      fun h => (failed_completed_iff hr hquiet).mp h hclean
    simp only [World.recording_calls, List.nil_append, World.recording_args]
      at hcalls
    exact
      { once := by
          rw [hcalls]
          cases evArgs.cbConn <;> simp
        success_iff := by
          rw [hcalls]
          cases evArgs.cbConn <;> simp [hsucc]
        context_iff := by simp [hctx, hsucc]
        type_iff := by simp [htype, hsucc]
        failure_iff := by
          rw [hcalls]
          cases evArgs.cbConn <;> simp [hfail]
        stopped := fun _ => completed_stopped w.recording fd evArgs r g
        released := fun _ => by
          rw [hcalls]
          cases evArgs.cbConn <;> simp }

/-- The last delivery reports the truth exactly when `getsockopt(2)` does not
fail. -/
theorem truthful_completed_iff
    (hw : w.type = .unknown)
    (hr : r.accepted = true)
    (hquiet : ∀ d ∈ quiet, d.write = false) :
    Truthful w evArgs r (quiet ++ [⟨true, g⟩])
        (completed w.recording fd evArgs r g) ↔
      g.ok = true := by
  cases herr : g.reportsError with
  | true =>
      exact iff_of_true (truthful_reports fd evArgs hw hr hquiet herr)
        (g.reportsError_iff.mp herr).1
  | false =>
      rw [truthful_connects_iff fd evArgs hr hquiet herr, g.clean_iff]
      constructor
      · intro hclean
        exact hclean.1
      · intro hok
        refine ⟨hok, ?_⟩
        by_contra hpending
        rw [g.reportsError_iff.mpr ⟨hok, hpending⟩] at herr
        cases herr

end Attempts

/-- **An attempt reports one truthful outcome** exactly when `connect(2)` is not
refused at once and `getsockopt(2)` does not fail when it is asked. -/
theorem connect_truthful_iff
    {w t : World} {fd : Option Int} {evArgs : IxfdConnectArgs}
    {r : ConnectResult} {ds : List Delivery}
    (hrun : connectAttempt w fd evArgs r ds = some t) :
    Truthful w evArgs r ds t ↔
      r.accepted = true ∧ ∀ d ∈ ds, d.write = true → d.sockopt.ok = true := by
  unfold connectAttempt at hrun
  split at hrun
  case isFalse => cases hrun
  case isTrue hw =>
    cases hr : r.accepted with
    | false =>
        obtain ⟨rfl, rfl⟩ :=
          refused_shape (w := w.recording) hr hrun
        simp [not_truthful_refused fd evArgs hr]
    | true =>
        rcases accepted_shapes (w := w.recording) hr hrun with
          ⟨hquiet, rfl⟩ | ⟨quiet, g, hquiet, rfl, rfl⟩
        · refine iff_of_true (truthful_waiting fd evArgs hw hr hquiet) ?_
          refine ⟨rfl, ?_⟩
          intro d hd hwrite
          rw [hquiet d hd] at hwrite
          cases hwrite
        · have hok : (∀ d ∈ quiet ++ [(⟨true, g⟩ : Delivery)],
              d.write = true → d.sockopt.ok = true) ↔ g.ok = true := by
            constructor
            · intro h
              exact h ⟨true, g⟩ (by simp) rfl
            · intro hg d hd hwrite
              rcases List.mem_append.mp hd with hd | hd
              · rw [hquiet d hd] at hwrite
                cases hwrite
              · obtain rfl := List.mem_singleton.mp hd
                exact hg
          rw [hok]
          simpa using truthful_completed_iff fd evArgs hw hr hquiet

/-- The connection is refused, and the application hears of it. -/
theorem connect_truthful_sample :
    ∃ t, connectAttempt World.created (some 7) ⟨true, true⟩
        ⟨-1, EINPROGRESS⟩ [⟨false, ⟨true, 0⟩⟩, ⟨true, ⟨true, 111⟩⟩] = some t ∧
      Truthful World.created ⟨true, true⟩ ⟨-1, EINPROGRESS⟩
        [⟨false, ⟨true, 0⟩⟩, ⟨true, ⟨true, 111⟩⟩] t :=
  ⟨_, rfl, (connect_truthful_iff rfl).mpr (by decide)⟩

/-- `connect(2)` fails at once with `ENETUNREACH`: the failure callback is
called, and the arguments are never freed. -/
theorem refused_attempt_keeps_args :
    ∃ t, connectAttempt World.created (some 7) ⟨true, true⟩ ⟨-1, 101⟩ [] =
        some t ∧
      t.calls = [.cbFailed] ∧
      ¬ Truthful World.created ⟨true, true⟩ ⟨-1, 101⟩ [] t := by
  refine ⟨_, rfl, rfl, ?_⟩
  intro h
  have hreleased := h.released (Or.inr (Or.inl rfl))
  exact absurd hreleased (by decide)

end Setup
end Iojxd
