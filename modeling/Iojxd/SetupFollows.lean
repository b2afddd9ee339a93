import Iojxd.ConnectOutcome

/-!
# Setup in the socket layer

The socket layer has the same functions among all others of `sock.cxx`, without
the results of the system calls and without what is never released.  Where a
world shows the fields of a socket of the layer, each function leads to a world
that shows them again, and the watcher of an attempt is followed until
`ixfd_commonsock_connect_cb` has returned.
-/

namespace Iojxd
namespace Setup

open Socket (Layer IxfdSockObj move_of_step)

/-- The world shows the fields of the socket `k` of the layer. -/
structure Shows (w : World) (s : Layer) (k : Nat) (sock : IxfdSockObj) :
    Prop where
  found : s.socks k = some sock
  fd : sock.fd = w.fd
  type : sock.type = w.type
  defaultCtx : sock.defaultCtx.isSome = w.defaultCtx
  eventAccept : sock.eventAccept.isSome = w.eventAccept.isSome
  eventConnect : sock.eventConnect.isSome = w.eventConnect.isSome

/-- The watcher at `i`, with the arguments at `p`, is that of the attempt `a`
on the socket `k`. -/
structure Tracks (w : World) (i p : Nat) (w_ : EvIo) (evArgs : IxfdConnectArgs)
    (s : Layer) (a k : Nat) (x : Socket.IxfdConnectArgs) : Prop where
  watcher : w.watchers[i]? = some w_
  data : w_.data = some p
  args : w.args[p]? = some (some evArgs)
  attempt : s.attempts a = some x
  sock : x.sock = k
  event : x.watcher = ⟨w_.fd, w_.active⟩
  cbConn : x.cbConn = evArgs.cbConn
  cbFailed : x.cbFailed = evArgs.cbFailed

section Follow

variable {w : World} {s t : Layer} {k : Nat} {sock : IxfdSockObj}

/-- A new socket is shown by the world it starts from. -/
theorem created_shows
    (s : Layer) :
    ∃ sock, Shows World.created (Socket.ixfdCommonsockCreate s) s.nextSock
      sock :=
  ⟨_, Function.update_self .., rfl, rfl, rfl, rfl, rfl⟩

theorem setup_follows_bind
    {fd : Option Int} {bindOk : Bool}
    (h : Shows w s k sock)
    (hstep : Socket.step s (.createnbind k fd bindOk) = some t) :
    ∃ sock', Shows (ixfdCommonsockTcpCreatenbind w fd bindOk) t k sock' := by
  cases move_of_step hstep with
  | @createnbind _ sock₁ _ _ hk htype hfd =>
      rw [h.found] at hk
      obtain rfl := Option.some.inj hk
      refine ⟨_, Function.update_self .., ?_, ?_, ?_, ?_, ?_⟩
      · cases bindOk <;> rfl
      · cases bindOk with
        | true => rfl
        | false => exact h.type
      · cases bindOk <;> exact h.defaultCtx
      · cases bindOk <;> rfl
      · cases bindOk <;> exact h.eventConnect

theorem setup_follows_connect
    {fd : Option Int} {evArgs : IxfdConnectArgs} {r : ConnectResult}
    (h : Shows w s k sock)
    (hstep : Socket.step s
      (.createnconnect k fd evArgs.cbConn evArgs.cbFailed r.accepted) =
        some t) :
    ∃ sock' x,
      Shows (ixfdCommonsockTcpCreatenconnect w fd evArgs r) t k sock' ∧
      Tracks (ixfdCommonsockTcpCreatenconnect w fd evArgs r)
        w.watchers.length w.args.length
        ⟨fd.getD (-1), r.accepted, some w.args.length⟩ evArgs
        t s.nextAttempt k x := by
  cases move_of_step hstep with
  | @createnconnect _ sock₁ _ _ _ _ hk htype hfd =>
      rw [h.found] at hk
      obtain rfl := Option.some.inj hk
      have hfields : (ixfdCommonsockTcpCreatenconnect w fd evArgs r).fd =
            fd.getD (-1) ∧
          (ixfdCommonsockTcpCreatenconnect w fd evArgs r).eventAccept =
            w.eventAccept ∧
          (ixfdCommonsockTcpCreatenconnect w fd evArgs r).eventConnect =
            some w.watchers.length := by
        unfold ixfdCommonsockTcpCreatenconnect
        split
        · exact ⟨rfl, rfl, rfl⟩
        · split <;> exact ⟨rfl, rfl, rfl⟩
      obtain ⟨hfdw, haccept, hconnect⟩ := hfields
      obtain ⟨htypew, hctx, -⟩ := createnconnect_kept w fd evArgs r
      refine ⟨_, _, ⟨Function.update_self .., ?_, ?_, ?_, ?_, ?_⟩,
        ⟨?_, rfl, ?_, Function.update_self .., rfl, rfl, rfl, rfl⟩⟩
      · rw [hfdw]
        rfl
      · rw [htypew]
        exact h.type
      · rw [hctx]
        exact h.defaultCtx
      · rw [haccept]
        exact h.eventAccept
      · rw [hconnect]
        rfl
      · rw [createnconnect_watcher, List.getElem?_concat_length]
      · rw [createnconnect_args, List.getElem?_concat_length]

/-- The layer has left `connect_cb`, at once or when the callback of the
application returned. -/
def Ended (t t' : Layer) : Prop :=
  t' = t ∨ Socket.step t .connectReturns = some t'

theorem reports_ends
    {a : Nat} {x : Socket.IxfdConnectArgs} (cb : Bool)
    (hattempt : s.attempts a = some x)
    (hstack : s.net.stack = []) :
    Ended (if cb then { s with reporting := some a }
        else Socket.endConnectCb s a x)
      (Socket.endConnectCb s a x) := by
  cases cb with
  | false => exact Or.inl rfl
  | true =>
      right
      simp only [Socket.step, if_true, hattempt, hstack, List.isEmpty_nil]
      rfl

theorem reporting_iff
    {a : Nat} {x : Socket.IxfdConnectArgs} (cb : Bool) :
    (if cb then { s with reporting := some a }
      else Socket.endConnectCb s a x).reporting = some a ↔ cb = true := by
  cases cb with
  | false => simp [Socket.endConnectCb]
  | true => simp

/-- `connect_cb` of the layer calls the callback that is there, and ends with a
stopped watcher. -/
theorem connectCb_ends
    {a : Nat} {x : Socket.IxfdConnectArgs}
    (sock : IxfdSockObj) (failed mallocOk : Bool)
    (hattempt : s.attempts a = some x)
    (hstack : s.net.stack = []) :
    ∃ t' x', Ended (Socket.ixfdCommonsockConnectCb s a x sock failed mallocOk)
        t' ∧
      ((Socket.ixfdCommonsockConnectCb s a x sock failed
        mallocOk).reporting = some a ↔
          (if failed then x.cbFailed else x.cbConn) = true) ∧
      t'.attempts a = some x' ∧ x'.watcher.active = false ∧
      t'.socks =
        if failed then s.socks
        else Function.update s.socks x.sock (some
          { sock with
            type := .tcp
            defaultCtx := some s.net.nextConn }) := by
  cases failed with
  | true =>
      exact ⟨_, _, reports_ends x.cbFailed hattempt hstack,
        reporting_iff x.cbFailed, Function.update_self .., rfl, rfl⟩
  | false =>
      let m := ((s.withNet (Socket.addConn s.net (Sock.activateCtx
        (Sock.ixfdCommonsockCreateCtx sock.callbacks sock.fd mallocOk)))).own
          s.net.nextConn x.sock sock.file).setSock x.sock
            { sock with
              type := .tcp
              defaultCtx := some s.net.nextConn }
      have hm : m.net.stack = [] := hstack
      exact ⟨_, _, reports_ends (s := m) x.cbConn hattempt hm,
        reporting_iff (s := m) x.cbConn, Function.update_self .., rfl, rfl⟩

/-- What `connect_cb` leaves of the fields of the world. -/
theorem connectCb_fields
    (w : World) (i a : Nat) (w_ : EvIo) (args : IxfdConnectArgs)
    (d : Delivery) :
    (ixfdCommonsockConnectCb w i w_ a args d).fd = w.fd ∧
      (ixfdCommonsockConnectCb w i w_ a args d).eventAccept = w.eventAccept ∧
      (ixfdCommonsockConnectCb w i w_ a args d).eventConnect =
        w.eventConnect := by
  unfold ixfdCommonsockConnectCb
  split
  · split
    · split <;> exact ⟨rfl, rfl, rfl⟩
    · split <;> exact ⟨rfl, rfl, rfl⟩
  · exact ⟨rfl, rfl, rfl⟩

/-- Where the layer takes up the watcher the world has the delivery too, and ends
with the same fields; the layer's step knows only whether an error is
reported. -/
theorem setup_follows_completion
    {i p a : Nat} {w_ : EvIo} {evArgs : IxfdConnectArgs}
    {x : Socket.IxfdConnectArgs} {g : Getsockopt} {mallocOk : Bool}
    (h : Shows w s k sock)
    (htrack : Tracks w i p w_ evArgs s a k x)
    (hstep : Socket.step s (.connectReady a g.reportsError mallocOk) =
      some t) :
    ∃ w' t' sock' x', deliver i w ⟨true, g⟩ = some w' ∧ Ended t t' ∧
      (t.reporting = some a ↔
        (if g.reportsError then evArgs.cbFailed else evArgs.cbConn) = true) ∧
      Shows w' t' k sock' ∧
      t'.attempts a = some x' ∧ x'.watcher.active = false ∧
      (w'.watchers[i]?).map EvIo.active = some false := by
  have hstopped : ((ixfdCommonsockConnectCb w i w_ p evArgs
      ⟨true, g⟩).watchers[i]?).map EvIo.active = some false := by
    obtain ⟨hi, -⟩ := List.getElem?_eq_some_iff.mp htrack.watcher
    rw [connectCb_watchers _ _ _ _ _ _ rfl, List.getElem?_set_self hi]
    rfl
  obtain ⟨hfd, haccept, hconnect⟩ := connectCb_fields w i p w_ evArgs ⟨true, g⟩
  cases move_of_step hstep with
  | @connectReady _ x₁ sock₁ _ _ ha hk hidle hactive =>
      rw [htrack.attempt] at ha
      obtain rfl := Option.some.inj ha
      rw [htrack.sock, h.found] at hk
      obtain rfl := Option.some.inj hk
      have hdeliver : deliver i w ⟨true, g⟩ =
          some (ixfdCommonsockConnectCb w i w_ p evArgs ⟨true, g⟩) := by
        rw [htrack.event] at hactive
        simp only [deliver, htrack.watcher, htrack.data, htrack.args]
        exact if_pos hactive
      have hstack : s.net.stack = [] := by
        simp only [Layer.idle, Bool.and_eq_true] at hidle
        exact List.isEmpty_iff.mp hidle.1
      obtain ⟨t', x', hended, hreporting, hattempt, hactive', hsocks⟩ :=
        connectCb_ends sock g.reportsError mallocOk htrack.attempt hstack
      cases herr : g.reportsError with
      | true =>
          obtain ⟨-, hctx, htype⟩ :=
            connectCb_reports w i p w_ evArgs ⟨true, g⟩ rfl herr
          rw [herr] at hended hreporting hsocks
          rw [htrack.cbConn, htrack.cbFailed] at hreporting
          refine ⟨_, t', sock, x', hdeliver, hended, hreporting, ?_, hattempt,
            hactive', hstopped⟩
          exact
            { found := by
                rw [hsocks]
                exact h.found
              fd := h.fd.trans hfd.symm
              type := h.type.trans htype.symm
              defaultCtx := h.defaultCtx.trans hctx.symm
              eventAccept := by rw [haccept, h.eventAccept]
              eventConnect := by rw [hconnect, h.eventConnect] }
      | false =>
          obtain ⟨-, hctx, htype⟩ :=
            connectCb_connects w i p w_ evArgs ⟨true, g⟩ rfl herr
          rw [herr] at hended hreporting hsocks
          rw [htrack.cbConn, htrack.cbFailed] at hreporting
          let joined : IxfdSockObj :=
            { sock with
              type := .tcp
              defaultCtx := some s.net.nextConn }
          refine ⟨_, t', joined, x', hdeliver, hended, hreporting, ?_, hattempt,
            hactive', hstopped⟩
          exact
            { found := by
                rw [hsocks, htrack.sock]
                exact Function.update_self ..
              fd := h.fd.trans hfd.symm
              type := htype.symm
              defaultCtx := hctx.symm
              eventAccept := h.eventAccept.trans (by rw [haccept])
              eventConnect := h.eventConnect.trans (by rw [hconnect]) }

end Follow

end Setup
end Iojxd
