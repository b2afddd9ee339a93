import Iojxd.LuaValue
import Iojxd.SocketRuns

/-!
# No released watcher is in the loop

`ixfd_commonsock_freectx` and `ixfd_commonsock_free` release their watchers
without stopping them.  The flags of a context, the calls of
`ixfd_commonsock_tcp_listen` and `ixfd_commonsock_unbind`, and the progress of a
connect attempt tell whether its watchers are started.  So a release is safe
exactly if the context is closed with nothing left to write, the socket does not
listen, and its connect attempt is over.
-/

namespace Iojxd
namespace Socket

open Sock TransitionRun

/-- Every watcher released so far had been stopped. -/
def StoppedReleases (s : Layer) : Prop :=
  ∀ r ∈ s.releases, r.active = false

/-- The context is closed, and no write is launched. -/
def Quiet (ctx : IxfdConnCtx) : Prop :=
  ctx.active = false ∧ ctx.writeLaunched = false

/-- What a socket and its default context must have come to before
`ixfd_commonsock_free`. -/
structure Retired (s : Layer) (sock : IxfdSockObj) : Prop where
  listens : sock.listens = false
  connect : ∀ a args, sock.eventConnect = some a →
    s.attempts a = some args → args.progress ≠ .pending
  default : ∀ c ctx, defaultConn s sock = some (c, ctx) → Quiet ctx

/-- Contexts are freed when they are quiet, sockets when they have retired. -/
def FreesStopped (s : Layer) : Label → Prop
  | .freectx c => ∀ ctx, s.net.conns c = some ctx → Quiet ctx
  | .free k => ∀ sock, s.socks k = some sock → Retired s sock
  | _ => True

/-- The accept watcher of a socket is started. -/
def IxfdSockObj.accepting (sock : IxfdSockObj) : Bool :=
  match sock.eventAccept with
  | none => false
  | some w => w.active

/-- The accept watcher is started while the socket listens; a socket that has
not been bound does not. -/
structure SockWatched (sock : IxfdSockObj) : Prop where
  listening : sock.accepting = sock.listens
  unbound : sock.type = .unknown → sock.listens = false

/-- The watchers of sockets and attempts agree with what the application has
called. -/
structure Watched (s : Layer) : Prop where
  sock : ∀ k sock, s.socks k = some sock → SockWatched sock
  attempt : ∀ a args, s.attempts a = some args →
    args.watcher.active = decide (args.progress = .pending)

theorem watched_init :
    Watched .init where
  sock := by simp [Layer.init]
  attempt := by simp [Layer.init]

/-! ## Sockets and attempts -/

namespace Watched

variable {s t : Layer}

/-- Only the sockets and the attempts matter. -/
theorem congr
    (h : Watched s) (hsocks : t.socks = s.socks)
    (hattempts : t.attempts = s.attempts) :
    Watched t where
  sock := hsocks ▸ h.sock
  attempt := hattempts ▸ h.attempt

theorem setSock
    (h : Watched s) (k : Nat) {sock : IxfdSockObj} (hsock : SockWatched sock) :
    Watched (s.setSock k sock) where
  sock := by
    intro j x hj
    rcases update_eq_some hj with ⟨_, rfl⟩ | ⟨_, hold⟩
    · exact hsock
    · exact h.sock j x hold
  attempt := h.attempt

theorem setAttempt
    (h : Watched s) (a : Nat) (args : IxfdConnectArgs)
    (hargs : args.watcher.active = decide (args.progress = .pending)) :
    Watched (s.setAttempt a args) where
  sock := h.sock
  attempt := by
    intro b x hb
    rcases update_eq_some hb with ⟨_, rfl⟩ | ⟨_, hold⟩
    · exact hargs
    · exact h.attempt b x hold

theorem endConnectCb
    (h : Watched s) (a : Nat) (args : IxfdConnectArgs) :
    Watched (endConnectCb s a args) :=
  (h.setAttempt a
    { args with
      watcher := args.watcher.stop
      progress := .over } rfl).congr rfl rfl

end Watched

theorem sockWatched_start
    {sock : IxfdSockObj} (htype : sock.type = .tcp)
    (haccept : sock.eventAccept.isSome = true) :
    SockWatched
      { sock with
        eventAccept := sock.eventAccept.map EvIo.start
        listens := true } := by
  rcases Option.isSome_iff_exists.mp haccept with ⟨w, hw⟩
  constructor
  · simp [IxfdSockObj.accepting, hw, EvIo.start]
  · intro hunknown
    change sock.type = .unknown at hunknown
    rw [htype] at hunknown
    cases hunknown

theorem sockWatched_stop (sock : IxfdSockObj) :
    SockWatched
      { sock with
        eventAccept := sock.eventAccept.map EvIo.stop
        listens := false } := by
  refine ⟨?_, fun _ => rfl⟩
  cases sock.eventAccept <;> simp [IxfdSockObj.accepting, EvIo.stop]

/-! ## Steps -/

section Steps

variable {s t : Layer}

/-- A socket of unknown type does not listen, and its new accept watcher is not
started. -/
theorem watched_createnbind
    (h : Watched s) {k : Nat} {sock : IxfdSockObj}
    (hk : s.socks k = some sock) (htype : sock.type = .unknown)
    (fd : Option Int) (bindOk : Bool) :
    Watched (ixfdCommonsockTcpCreatenbind s k sock fd bindOk) := by
  have hlistens : sock.listens = false := (h.sock k sock hk).unbound htype
  have hnet : Watched { s with net := openFile s.net fd } := h.congr rfl rfl
  apply hnet.setSock
  cases bindOk with
  | false => exact ⟨hlistens.symm, fun _ => hlistens⟩
  | true => exact ⟨hlistens.symm, fun _ => hlistens⟩

theorem watched_createnconnect
    (h : Watched s) {k : Nat} {sock : IxfdSockObj}
    (hk : s.socks k = some sock)
    (fd : Option Int) (cbConn cbFailed connecting : Bool) :
    Watched (ixfdCommonsockTcpCreatenconnect s k sock fd
      cbConn cbFailed connecting) := by
  have hsock := h.sock k sock hk
  have hnet : Watched { s with
      net := openFile s.net fd
      nextAttempt := s.nextAttempt + 1 } := h.congr rfl rfl
  apply (hnet.setAttempt _ _ _).setSock
  · exact ⟨hsock.listening, hsock.unbound⟩
  · cases connecting <;> rfl

theorem watched_connectCb
    (h : Watched s) {a : Nat} {args : IxfdConnectArgs}
    {sock : IxfdSockObj} (hk : s.socks args.sock = some sock)
    (failed mallocOk : Bool) :
    Watched (ixfdCommonsockConnectCb s a args sock failed mallocOk) := by
  unfold ixfdCommonsockConnectCb
  split
  · split
    · exact h.congr rfl rfl
    · exact h.endConnectCb a args
  · have hsock : SockWatched
        { sock with
          type := .tcp
          defaultCtx := some s.net.nextConn } :=
      ⟨(h.sock _ sock hk).listening, by rintro ⟨⟩⟩
    have hset := h.setSock args.sock hsock
    split
    · exact hset.congr rfl rfl
    · refine Watched.endConnectCb ?_ a args
      exact hset.congr rfl rfl

theorem watched_disconnect
    (h : Watched s) (k : Nat) (sock : IxfdSockObj) :
    Watched (ixfdCommonsockDisconnect s k sock) := by
  unfold ixfdCommonsockDisconnect
  rcases closeDefault_cases s sock with ⟨c, ctx, _, _, heq⟩ | ⟨_, heq⟩
  · rw [heq]
    exact h.congr rfl rfl
  · rw [heq]
    exact h.congr rfl rfl

theorem watched_free
    (h : Watched s) (k : Nat) (sock : IxfdSockObj) :
    Watched (ixfdCommonsockFree s k sock) := by
  unfold ixfdCommonsockFree
  rcases freeDefault_cases s sock with ⟨c, ctx, _, heq⟩ | ⟨_, heq⟩
  · rw [heq]
    exact h.congr rfl rfl
  · rw [heq]
    exact h.congr rfl rfl

theorem watched_step
    {l : Label} (h : Watched s) (ht : step s l = some t) :
    Watched t := by
  cases move_of_step ht with
  | conn hok hnet => exact h.congr rfl rfl
  | create =>
      have hsock : SockWatched ⟨⟨false, false, false, false⟩, 0, none,
          .unknown, none, none, none, false⟩ :=
        ⟨rfl, fun _ => rfl⟩
      have hset := h.setSock s.nextSock hsock
      exact hset.congr rfl rfl
  | configure hk =>
      have hsock := h.sock _ _ hk
      exact h.setSock _ ⟨hsock.listening, hsock.unbound⟩
  | createnbind hk htype hfd => exact watched_createnbind h hk htype _ _
  | createnconnect hk htype hfd => exact watched_createnconnect h hk _ _ _ _
  | listen hk htype haccept =>
      exact h.setSock _ (sockWatched_start htype haccept)
  | unbind hk => exact (h.setSock _ (sockWatched_stop _)).congr rfl rfl
  | disconnect hk => exact watched_disconnect h _ _
  | freectx hc hfreed => exact h.congr rfl rfl
  | free hk => exact watched_free h _ _
  | accept hk hidle hnet => exact h.congr rfl rfl
  | acceptFailed hk hidle => exact h.congr rfl rfl
  | connectReady ha hk hidle hactive => exact watched_connectCb h hk _ _
  | connectReturns ha hreporting hstack => exact h.endConnectCb _ _

end Steps

/-! ## Releases -/

theorem quiet_iff
    {stack : List Frame} {c : Nat} {ctx : IxfdConnCtx}
    (h : CtxAwake stack c ctx) :
    Quiet ctx ↔
      ctx.eventRead.active = false ∧ ctx.eventWrite.active = false := by
  unfold Quiet
  rw [h.reading, h.launched]

theorem stopped_freectx_iff
    {s : Layer} (ha : Awake s.net) (hs : StoppedReleases s)
    {c : Nat} {ctx : IxfdConnCtx} (hc : s.net.conns c = some ctx) :
    StoppedReleases (ixfdCommonsockFreectx s c ctx) ↔ Quiet ctx := by
  rw [quiet_iff (ha c ctx hc)]
  unfold StoppedReleases at hs ⊢
  simp only [ixfdCommonsockFreectx, List.forall_mem_append]
  rw [and_iff_right hs]
  simp

/-- The default context is freed if the socket has one. -/
theorem stopped_freeDefault_iff
    {s : Layer} (ha : Awake s.net) (hs : StoppedReleases s)
    (sock : IxfdSockObj) :
    StoppedReleases (freeDefault s sock) ↔
      ∀ c ctx, defaultConn s sock = some (c, ctx) → Quiet ctx := by
  rcases freeDefault_cases s sock with ⟨c, ctx, hdef, heq⟩ | ⟨hdef, heq⟩
  · rw [heq, stopped_freectx_iff ha hs (defaultConn_eq_some hdef).2.2]
    simp [hdef]
  · rw [heq]
    simp [hdef, hs]

theorem stopped_accept_iff
    {sock : IxfdSockObj} (h : SockWatched sock) (k : Nat) :
    (∀ r ∈ releaseAccept k sock.eventAccept, r.active = false) ↔
      sock.listens = false := by
  rw [← h.listening]
  unfold IxfdSockObj.accepting releaseAccept
  cases sock.eventAccept <;> simp

theorem stopped_connect_iff
    {s : Layer} (h : Watched s) (sock : IxfdSockObj) :
    (∀ r ∈ releaseConnect s sock.eventConnect, r.active = false) ↔
      ∀ a args, sock.eventConnect = some a →
        s.attempts a = some args → args.progress ≠ .pending := by
  unfold releaseConnect
  cases sock.eventConnect with
  | none => simp
  | some a =>
      cases ha : s.attempts a with
      | none =>
          constructor
          · rintro _ b args ⟨⟩ hb
            rw [ha] at hb
            cases hb
          · simp [ha]
      | some args =>
          have hactive := h.attempt a args ha
          have hone : (∀ r ∈ [(⟨.eventConnect a, args.watcher.active⟩ :
              Release)], r.active = false) ↔ args.progress ≠ .pending := by
            simp [hactive]
          simp only [ha]
          rw [hone]
          constructor
          · rintro hover b x ⟨⟩ hb
            rw [ha] at hb
            cases hb
            exact hover
          · intro hall
            exact hall a args rfl ha

theorem stopped_free_iff
    {s : Layer} (ha : Awake s.net) (h : Watched s) (hs : StoppedReleases s)
    {k : Nat} {sock : IxfdSockObj} (hk : s.socks k = some sock) :
    StoppedReleases (ixfdCommonsockFree s k sock) ↔ Retired s sock := by
  have haccept := stopped_accept_iff (h.sock k sock hk) k
  have hconnect := stopped_connect_iff h sock
  have hdefault := stopped_freeDefault_iff ha hs sock
  have hsplit : StoppedReleases (ixfdCommonsockFree s k sock) ↔
      (StoppedReleases (freeDefault s sock) ∧
        ∀ r ∈ releaseAccept k sock.eventAccept, r.active = false) ∧
        ∀ r ∈ releaseConnect s sock.eventConnect, r.active = false := by
    unfold StoppedReleases
    simp only [ixfdCommonsockFree, List.forall_mem_append]
  rw [hsplit, haccept, hconnect, hdefault]
  constructor
  · rintro ⟨⟨hdef, hlistens⟩, hconn⟩
    exact ⟨hlistens, hconn, hdef⟩
  · intro hr
    exact ⟨⟨hr.default, hr.listens⟩, hr.connect⟩

/-- Only the two functions that free release anything. -/
theorem releases_of_step
    {s t : Layer} {l : Label} (ht : step s l = some t)
    (hctx : ∀ c, l ≠ .freectx c) (hfree : ∀ k, l ≠ .free k) :
    t.releases = s.releases := by
  cases move_of_step ht with
  | @disconnect k sock hk =>
      unfold ixfdCommonsockDisconnect
      rcases closeDefault_cases s sock with ⟨c, ctx, _, _, heq⟩ | ⟨_, heq⟩
      · rw [heq]
        rfl
      · rw [heq]
        rfl
  | freectx hc hfreed => exact absurd rfl (hctx _)
  | free hk => exact absurd rfl (hfree _)
  | connectReady ha hk hidle hactive =>
      unfold ixfdCommonsockConnectCb
      split
      · split <;> rfl
      · split <;> rfl
  | _ => rfl

/-- One step decides whether the releases stay safe. -/
theorem stoppedReleases_step_iff
    {s t : Layer} {l : Label} (ha : Awake s.net) (h : Watched s)
    (hs : StoppedReleases s) (ht : step s l = some t) :
    StoppedReleases t ↔ FreesStopped s l := by
  by_cases hctx : ∃ c, l = .freectx c
  · obtain ⟨c, rfl⟩ := hctx
    cases move_of_step ht with
    | freectx hc hfreed =>
        rw [stopped_freectx_iff ha hs hc]
        simp [FreesStopped, hc]
  · by_cases hfree : ∃ k, l = .free k
    · obtain ⟨k, rfl⟩ := hfree
      cases move_of_step ht with
      | free hk =>
          rw [stopped_free_iff ha h hs hk]
          simp [FreesStopped, hk]
    · have hkept := releases_of_step ht
        (fun c hc => hctx ⟨c, hc⟩) (fun k hk => hfree ⟨k, hk⟩)
      have hstopped : StoppedReleases t := by
        intro r hr
        exact hs r (hkept ▸ hr)
      have htrue : FreesStopped s l := by
        cases l with
        | freectx c => exact absurd ⟨c, rfl⟩ hctx
        | free k => exact absurd ⟨k, rfl⟩ hfree
        | _ => trivial
      exact iff_of_true hstopped htrue

/-- Every watcher that a run releases has been stopped exactly if contexts are
freed when they are quiet and sockets when they have retired. -/
theorem releases_stopped_iff (ls : List Label) :
    EveryState step StoppedReleases .init ls ↔
      EveryStep step (fun s l _ => FreesStopped s l) .init ls := by
  have hinit : StoppedReleases .init := by
    simp [StoppedReleases, Layer.init]
  rw [everyState_iff_everyStep hinit]
  apply everyStep_congr
    (I := fun s => (Awake s.net ∧ Watched s) ∧ StoppedReleases s)
  · intro s t l _ hs ht
    exact stoppedReleases_step_iff hs.1.1 hs.1.2 hs.2 ht
  · intro s t l _ hs ht hstopped
    exact ⟨⟨awake_of_step hs.1.1 ht, watched_step hs.1.2 ht⟩, hstopped⟩
  · exact ⟨⟨awake_init, watched_init⟩, hinit⟩

/-- A connection with a pending write is closed and freed: its write watcher is
still started. -/
theorem pending_write_freed :
    let ls : List Label :=
      [.create, .createnbind 0 (some 3) true, .listen 0, .accept 0 5 true,
        .conn (.write 1 ⟨bytes "ab", by decide⟩ none 0 1),
        .conn (.close 1), .freectx 1]
    (run step .init ls).map Layer.releases =
        some [⟨.eventRead 1, false⟩, ⟨.eventWrite 1, true⟩] ∧
      ¬ EveryState step StoppedReleases .init ls := by
  refine refuted_of_run (by decide) ?_
  intro t hreleases hstopped
  unfold StoppedReleases at hstopped
  rw [hreleases] at hstopped
  simp at hstopped

end Socket
end Iojxd
