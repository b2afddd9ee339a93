import Iojxd.SocketDescriptors

/-!
# Closing each descriptor once

When the operations of the socket layer close only what they own.  A connected
socket and its default context hold one descriptor, and the context is active
until a call was issued for that descriptor.  `ixfd_commonsock_disconnect`
closes the active context and then the socket, so it closes a descriptor twice
or one that was closed before, whatever the state.
-/

namespace Iojxd
namespace Socket

open Sock TransitionRun

/-- The context or socket has got a descriptor, and no call of `close(2)` has
been issued for it, neither through this holder nor through another one. -/
def Unclosed (s : Layer) (x : Closer) : Prop :=
  ∃ o, opened s x = some o ∧ o ∉ closedFiles s

/-- `ixfd_commonsock_disconnect` is not called, and a socket is unbound, or a
context closed, before anything else has closed its descriptor. -/
def ClosesOnce (s : Layer) : Label → Prop
  | .disconnect _ => False
  | .unbind k => Unclosed s (.sock k)
  | .conn l => ∀ c, closedBy (connSock s l) s.net l = some c →
      Unclosed s (.conn c)
  | _ => True

/-- A socket with a default context is connected, they hold one file, and the
context is active as long as no call was issued for that file. -/
def Shares (s : Layer) (sock : IxfdSockObj) : Prop :=
  ∀ c, sock.defaultCtx = some c → sock.type = .tcp ∧ s.file c = sock.file ∧
    ∃ ctx, s.net.conns c = some ctx ∧
      (ctx.active = true ∨ ∀ o, s.file c = some o → o ∈ closedFiles s)

def Shared (s : Layer) : Prop :=
  ∀ k sock, s.socks k = some sock → Shares s sock

theorem shared_init :
    Shared .init := by
  simp [Shared, Layer.init]

/-! ## Contexts that stay active -/

/-- Contexts keep their files, and stay active until a call is issued for
them. -/
structure KeepsConns (s t : Layer) : Prop where
  closed : ∀ o ∈ closedFiles s, o ∈ closedFiles t
  conns : ∀ c ctx, s.net.conns c = some ctx → t.file c = s.file c ∧
    ∃ ctx', t.net.conns c = some ctx' ∧
      (ctx.active = true → ctx'.active = true ∨
        ∀ o, s.file c = some o → o ∈ closedFiles t)

theorem closedFiles_of_append
    {s t : Layer} {rs : List CloseCall} (h : t.closes = s.closes ++ rs) :
    ∀ o ∈ closedFiles s, o ∈ closedFiles t := by
  intro o ho
  unfold closedFiles
  rw [h, List.filterMap_append]
  exact List.mem_append_left _ ho

section KeepsConns

variable {s t : Layer}

theorem keepsConns_same
    (hconns : t.net.conns = s.net.conns) (hfile : t.file = s.file)
    {rs : List CloseCall} (hcloses : t.closes = s.closes ++ rs) :
    KeepsConns s t where
  closed := closedFiles_of_append hcloses
  conns c ctx hc := by
    rw [hconns, hfile]
    exact ⟨rfl, ctx, hc, Or.inl⟩

theorem still_forward
    {s m : Net} (h : Still s m) {c : Nat} {ctx : IxfdConnCtx}
    (hc : s.conns c = some ctx) :
    ∃ ctx', m.conns c = some ctx' ∧ ctx'.active = ctx.active := by
  have hview := h.conns c
  rw [hc, Option.map_some] at hview
  rcases Option.map_eq_some_iff.mp hview with ⟨ctx', hc', heq⟩
  rw [Prod.mk.injEq] at heq
  exact ⟨ctx', hc', heq.2⟩

/-- A call is issued for the context that stops being active. -/
theorem keepsConns_close
    {m : Net} (hm : Still s.net m) (c : Nat) (ctx : IxfdConnCtx) :
    KeepsConns s (s.withNet (ixfdCommonsockClose m c ctx)) := by
  have hcalls := closeCalls_close hm c ctx
  have hcloses : (s.withNet (ixfdCommonsockClose m c ctx)).closes =
      s.closes ++ [⟨.conn c, ctx.fd, s.file c, s.net.kernel ctx.fd⟩] := by
    simp [hcalls]
  refine ⟨closedFiles_of_append hcloses, ?_⟩
  intro d x hd
  refine ⟨rfl, ?_⟩
  by_cases hdc : d = c
  · subst hdc
    refine ⟨closeCtx ctx, ?_, ?_⟩
    · exact Function.update_self ..
    · intro _
      right
      intro o ho
      unfold closedFiles
      rw [hcloses, List.filterMap_append]
      simp [ho]
  · obtain ⟨x', hx', hactive⟩ := still_forward hm hd
    refine ⟨x', (Function.update_of_ne hdc ..).trans hx', ?_⟩
    intro hx
    exact Or.inl (hactive.trans hx)

theorem keepsConns_conn
    {l : Sock.Label} {net : Net} (hok : connEnabled s l = true)
    (hnet : Sock.step (connSock s l) s.net l = some net) :
    KeepsConns s (s.withNet net) := by
  cases connMove_of_conn hok hnet with
  | still hnone h =>
      refine ⟨closedFiles_of_append rfl, ?_⟩
      intro c ctx hc
      obtain ⟨ctx', hc', hactive⟩ := still_forward h hc
      exact ⟨rfl, ctx', hc', fun hx => Or.inl (hactive.trans hx)⟩
  | closes hsome h hc => exact keepsConns_close h _ _
  | @activates c ctx stack hnone hstack hc =>
      refine ⟨closedFiles_of_append rfl, ?_⟩
      intro d x hd
      refine ⟨rfl, ?_⟩
      by_cases hdc : d = c
      · subst hdc
        exact ⟨activateCtx ctx, Function.update_self .., fun _ => Or.inl rfl⟩
      · exact ⟨x, (Function.update_of_ne hdc ..).trans hd, Or.inl⟩

/-- A new context changes no other one. -/
theorem keepsConns_newConn
    (hknown : Known s.net) {net : Net} {fd : Int} {ctx : IxfdConnCtx}
    (hnew : NewConn s.net net fd ctx) (k : Nat) (file : Option Nat) :
    KeepsConns s ((s.withNet net).own s.net.nextConn k file) := by
  refine ⟨closedFiles_of_append rfl, ?_⟩
  intro c x hc
  have hne : c ≠ s.net.nextConn := by
    rintro rfl
    rw [hknown _ (Nat.le_refl _)] at hc
    cases hc
  refine ⟨Function.update_of_ne hne .., x, ?_, Or.inl⟩
  change net.conns c = some x
  rw [hnew.conns, Function.update_of_ne hne]
  exact hc

end KeepsConns

/-! ## Default contexts -/

section Steps

variable {s t : Layer}

theorem Shares.keeps
    {sock sock' : IxfdSockObj} (h : Shares s sock) (hkeeps : KeepsConns s t)
    (hdefault : sock'.defaultCtx = sock.defaultCtx)
    (htype : sock'.type = sock.type) (hfile : sock'.file = sock.file) :
    Shares t sock' := by
  intro c hc
  obtain ⟨htcp, hshared, ctx, hctx, hactive⟩ := h c (hdefault ▸ hc)
  obtain ⟨hkept, ctx', hctx', hactive'⟩ := hkeeps.conns c ctx hctx
  refine ⟨htype.trans htcp, ?_, ctx', hctx', ?_⟩
  · rw [hkept, hshared, hfile]
  · rw [hkept]
    rcases hactive with hon | hclosed
    · exact hactive' hon
    · exact Or.inr fun o ho => hkeeps.closed o (hclosed o ho)

/-- A socket of unknown type has no default context. -/
theorem Shares.of_unknown
    {sock sock' : IxfdSockObj} (h : Shares s sock)
    (htype : sock.type = .unknown)
    (hdefault : sock'.defaultCtx = sock.defaultCtx) :
    Shares t sock' := by
  intro c hc
  obtain ⟨htcp, _⟩ := h c (hdefault ▸ hc)
  rw [htype] at htcp
  cases htcp

namespace Shared

theorem keeps
    (h : Shared s) (hkeeps : KeepsConns s t) (hsocks : t.socks = s.socks) :
    Shared t := by
  intro k sock hk
  rw [hsocks] at hk
  exact (h k sock hk).keeps hkeeps rfl rfl rfl

/-- Only the contexts, their files, the calls and the sockets matter. -/
theorem congr
    (h : Shared s) (hconns : t.net.conns = s.net.conns)
    (hfile : t.file = s.file) (hcloses : t.closes = s.closes)
    (hsocks : t.socks = s.socks) :
    Shared t := by
  have hcalls : t.closes = s.closes ++ [] := by
    rw [hcloses, List.append_nil]
  exact h.keeps (keepsConns_same hconns hfile hcalls) hsocks

theorem setSock
    (h : Shared s) (k : Nat) (sock : IxfdSockObj) (hsock : Shares s sock) :
    Shared (s.setSock k sock) := by
  intro j x hj
  rcases update_eq_some hj with ⟨_, rfl⟩ | ⟨_, hold⟩
  · exact hsock
  · exact h j x hold

end Shared

theorem keepsConns_closeSockFd
    (s : Layer) (k : Nat) (sock : IxfdSockObj) :
    KeepsConns s (closeSockFd s k sock) :=
  keepsConns_same rfl rfl rfl

theorem shared_disconnect
    (h : Shared s) (k : Nat) (sock : IxfdSockObj) :
    Shared (ixfdCommonsockDisconnect s k sock) := by
  have hclosed : Shared (closeDefault s sock) := by
    rcases closeDefault_cases s sock with ⟨c, ctx, _, _, heq⟩ | ⟨_, heq⟩
    · rw [heq]
      exact h.keeps (keepsConns_close (Still.refl s.net) c ctx) rfl
    · rw [heq]
      exact h
  exact hclosed.keeps (keepsConns_closeSockFd _ k sock) rfl

theorem shared_free
    (h : Shared s) (k : Nat) (sock : IxfdSockObj) :
    Shared (ixfdCommonsockFree s k sock) := by
  have hfreed : Shared (freeDefault s sock) := by
    rcases freeDefault_cases s sock with ⟨c, ctx, _, heq⟩ | ⟨_, heq⟩
    · rw [heq]
      exact h.congr rfl rfl rfl rfl
    · rw [heq]
      exact h
  exact hfreed.congr rfl rfl rfl rfl

/-- The new default context is active. -/
theorem shared_connectCb
    (hknown : Known s.net) (h : Shared s) {a : Nat} {args : IxfdConnectArgs}
    {sock : IxfdSockObj} (failed mallocOk : Bool) :
    Shared (ixfdCommonsockConnectCb s a args sock failed mallocOk) := by
  unfold ixfdCommonsockConnectCb
  split
  · split <;> exact h.congr rfl rfl rfl rfl
  · have hnew := newConn_connectCb s.net sock mallocOk
    have hkept := h.keeps
      (keepsConns_newConn hknown hnew args.sock sock.file) rfl
    have hset := hkept.setSock args.sock
      { sock with
        type := .tcp
        defaultCtx := some s.net.nextConn } (by
        rintro c ⟨⟩
        refine ⟨rfl, Function.update_self .., _, Function.update_self .., ?_⟩
        exact Or.inl rfl)
    split
    · exact hset.congr rfl rfl rfl rfl
    · exact hset.congr rfl rfl rfl rfl

/-- A socket that gets a descriptor has no default context. -/
theorem shared_opened
    (h : Shared s) {k : Nat} {sock : IxfdSockObj}
    (hk : s.socks k = some sock) (htype : sock.type = .unknown)
    (fd : Option Int) (sock' : IxfdSockObj)
    (hdefault : sock'.defaultCtx = sock.defaultCtx) :
    Shared ({ s with net := openFile s.net fd }.setSock k sock') := by
  have hnet : Shared { s with net := openFile s.net fd } :=
    h.congr (openFile_conns s.net fd) rfl rfl rfl
  exact hnet.setSock k sock' ((h k sock hk).of_unknown htype hdefault)

theorem shared_step
    {l : Label} (hknown : Known s.net) (h : Shared s)
    (ht : step s l = some t) :
    Shared t := by
  have hset : ∀ {k : Nat} {sock sock' : IxfdSockObj},
      s.socks k = some sock → sock'.defaultCtx = sock.defaultCtx →
      sock'.type = sock.type → sock'.file = sock.file →
      Shared (s.setSock k sock') := by
    intro k sock sock' hk hdefault htype hfile
    apply h.setSock
    intro c hc
    obtain ⟨htcp, hshared, hctx⟩ := h k sock hk c (hdefault ▸ hc)
    exact ⟨htype.trans htcp, hshared.trans hfile.symm, hctx⟩
  cases move_of_step ht with
  | conn hok hnet => exact h.keeps (keepsConns_conn hok hnet) rfl
  | create =>
      have hnone : Shares s ⟨⟨false, false, false, false⟩, 0, none, .unknown,
          none, none, none, false⟩ := by
        rintro c ⟨⟩
      exact (h.setSock _ _ hnone).congr rfl rfl rfl rfl
  | configure hk => exact hset hk rfl rfl rfl
  | @createnbind k sock fd bindOk hk htype hfd =>
      apply shared_opened h hk htype
      cases bindOk <;> rfl
  | @createnconnect k sock fd cbConn cbFailed connecting hk htype hfd =>
      have hopened := shared_opened h hk htype fd
        { sock.opened s.net fd with
          eventConnect := some s.nextAttempt } rfl
      exact hopened.congr rfl rfl rfl rfl
  | listen hk htype haccept => exact hset hk rfl rfl rfl
  | @unbind k sock hk =>
      have hstop : Shared (s.setSock k
          { sock with
            eventAccept := sock.eventAccept.map EvIo.stop
            listens := false }) := hset hk rfl rfl rfl
      exact hstop.keeps (keepsConns_closeSockFd _ k sock) rfl
  | disconnect hk => exact shared_disconnect h _ _
  | freectx hc hfreed => exact h.congr rfl rfl rfl rfl
  | free hk => exact shared_free h _ _
  | accept hk hidle hnet =>
      obtain ⟨_, _, rfl⟩ := accept_eq_some hnet
      obtain ⟨ctx, hnew⟩ := newConn_acceptCb _ s.net _ _
      exact h.keeps (keepsConns_newConn hknown hnew _ _) rfl
  | acceptFailed hk hidle =>
      obtain ⟨ctx, hnew⟩ := newConn_acceptFailed _ s.net _
      exact h.keeps (keepsConns_newConn hknown hnew _ _) rfl
  | connectReady ha hk hidle hactive => exact shared_connectCb hknown h _ _
  | connectReturns ha hreporting hstack => exact h.congr rfl rfl rfl rfl

/-- The active default context has the descriptor of its socket, and the
descriptor of an inactive one has been closed. -/
theorem not_firstClose_disconnect
    {k : Nat} (h : Shared s) (ht : step s (.disconnect k) = some t) :
    ¬ FirstClose s (.disconnect k) := by
  obtain ⟨sock, hk, hsome, _⟩ := onSock_eq_some ht
  rcases Option.isSome_iff_exists.mp hsome with ⟨⟨c, ctx⟩, hdef⟩
  obtain ⟨hdefault, _, hctx⟩ := defaultConn_eq_some hdef
  obtain ⟨_, hfile, ctx', hctx', hactive⟩ := h k sock hk c hdefault
  rw [hctx] at hctx'
  cases hctx'
  have hopened : opened s (.sock k) = s.file c := by
    simp [opened, hk, hfile]
  rintro ⟨hnodup, hopen⟩
  cases hon : ctx.active with
  | true =>
      have hcloses : closing s (.disconnect k) = [.conn c, .sock k] := by
        simp [closing, closesDefault, hk, hdef, hon]
      have hfirst : opened s (.conn c) = s.file c := rfl
      rw [hcloses, List.map_cons, List.map_singleton, hfirst, hopened] at hnodup
      simp at hnodup
  | false =>
      obtain ⟨o, ho, hno⟩ := hopen (.sock k) (by simp [closing])
      rcases hactive with hyes | hclosed
      · rw [hon] at hyes
        cases hyes
      · exact hno (hclosed o (hopened ▸ ho))

/-- What an operation must not close twice, operation by operation. -/
theorem firstClose_iff
    {l : Label} (h : Shared s) (ht : step s l = some t) :
    FirstClose s l ↔ ClosesOnce s l := by
  cases l with
  | disconnect k =>
      exact iff_of_false (not_firstClose_disconnect h ht) id
  | unbind k => simp [FirstClose, closing, ClosesOnce, Unclosed]
  | conn l =>
      cases hclosed : closedBy (connSock s l) s.net l with
      | none => simp [FirstClose, closing, ClosesOnce, hclosed]
      | some c => simp [FirstClose, closing, ClosesOnce, Unclosed, hclosed]
  | _ => simp [FirstClose, closing, ClosesOnce]

end Steps

/-- Every `close(2)` of a run names the file that its caller's descriptor was
opened for, exactly if sockets are not disconnected and no socket is unbound or
context closed whose descriptor has been closed before. -/
theorem closes_owned_iff (ls : List Label) :
    EveryState step OwnedCloses .init ls ↔
      EveryStep step (fun s l _ => ClosesOnce s l) .init ls := by
  have hinit : OwnedCloses .init := by simp [OwnedCloses, Layer.init]
  rw [everyState_iff_everyStep hinit]
  apply everyStep_congr
    (I := fun s => (Known s.net ∧ Shared s) ∧ Tracked s ∧ OwnedCloses s)
  · intro s t l _ hs ht
    rw [ownedCloses_step_iff hs.2.1 hs.2.2 ht]
    exact firstClose_iff hs.1.2 ht
  · intro s t l _ hs ht ho
    exact ⟨⟨known_of_step hs.1.1 ht, shared_step hs.1.1 hs.1.2 ht⟩,
      tracked_step hs.2.1 ho ht, ho⟩
  · exact ⟨⟨known_init, shared_init⟩, tracked_init, hinit⟩

/-- The close callback closes its connection, a new socket gets the number, and
`ixfd_commonsock_read_cb` closes that number again. -/
theorem closed_twice_on_end_of_file :
    let ls : List Label :=
      [.create, .configure 0 ⟨false, false, true, false⟩,
        .createnbind 0 (some 3) true, .listen 0, .accept 0 5 true,
        .conn (.readReady 1 (.data [])), .conn (.close 1),
        .create, .createnbind 1 (some 5) true, .conn .callbackReturns]
    (run step .init ls).map Layer.closes =
        some [⟨.conn 1, 5, some 1, some 1⟩, ⟨.conn 1, 5, some 1, some 2⟩] ∧
      ¬ EveryState step OwnedCloses .init ls := by
  refine refuted_of_run (by decide) ?_
  intro t hcloses howned
  unfold OwnedCloses at howned
  rw [hcloses] at howned
  obtain ⟨o, hown, hname⟩ := howned ⟨.conn 1, 5, some 1, some 2⟩ (by simp)
  cases hown
  cases hname

end Socket
end Iojxd
