import Iojxd.DescriptorLedger
import Iojxd.SocketRuns

/-!
# Every descriptor is closed by its owner, once

The descriptor table, the contexts and the sockets form a ledger: a file that
no recorded `close(2)` was meant for is named by the number of every context
and socket that holds it.  A `close(2)` then hits the file of its caller exactly
if the caller has one and nobody has closed it before.
-/

namespace Iojxd
namespace Socket

open Sock TransitionRun DescriptorLedger

/-- The call names the file that the caller's descriptor was opened for.  A
file is never opened twice, so nobody has closed it before. -/
def ClosesOwn (r : CloseCall) : Prop :=
  ∃ o, r.own = some o ∧ r.named = some o

/-- Every `close(2)` issued so far. -/
def OwnedCloses (s : Layer) : Prop :=
  ∀ r ∈ s.closes, ClosesOwn r

/-- The files that the operations so far were meant to close. -/
def closedFiles (s : Layer) : List Nat :=
  s.closes.filterMap CloseCall.own

/-- The file that a context or a socket got a descriptor for. -/
def opened (s : Layer) : Closer → Option Nat
  | .conn c => s.file c
  | .sock k => (s.socks k).bind IxfdSockObj.file

/-- The default context that `ixfd_commonsock_disconnect` closes. -/
def closesDefault (s : Layer) (k : Nat) : Option Nat :=
  match (s.socks k).bind (defaultConn s) with
  | some (c, ctx) => if ctx.active then some c else none
  | none => none

/-- The contexts and sockets whose descriptors the operation closes. -/
def closing (s : Layer) : Label → List Closer
  | .conn l => (closedBy (connSock s l) s.net l).toList.map .conn
  | .unbind k => [.sock k]
  | .disconnect k => (closesDefault s k).toList.map .conn ++ [.sock k]
  | _ => []

/-- The operation closes only descriptors that were opened, each once, and that
no operation has closed before. -/
def FirstClose (s : Layer) (l : Label) : Prop :=
  ((closing s l).map (opened s)).Nodup ∧
    ∀ x ∈ closing s l, ∃ o, opened s x = some o ∧ o ∉ closedFiles s

/-- A context or a socket remembers the number and the file. -/
def Holds (s : Layer) (n : Int) (o : Nat) : Prop :=
  (∃ c ctx, s.net.conns c = some ctx ∧ ctx.fd = n ∧ s.file c = some o) ∨
    ∃ k sock, s.socks k = some sock ∧ sock.fd = n ∧ sock.file = some o

/-- The ledger of the socket layer. -/
def Tracked (s : Layer) : Prop :=
  Ledger s.net.kernel (Holds s) (· ∈ closedFiles s) (· < s.net.nextConn)

theorem tracked_init :
    Tracked .init where
  own := by simp [Holds, Layer.init, Net.init]
  gone := by simp [Layer.init, Net.init]
  inj := by simp [Layer.init, Net.init]
  heldUsed := by simp [Holds, Layer.init, Net.init]
  closedUsed := by simp [closedFiles, Layer.init]
  tableUsed := by simp [Layer.init, Net.init]

/-! ## Holders -/

/-- A step of the connection layer keeps the numbers of its contexts. -/
theorem holds_withNet
    {s : Layer} {net : Net}
    (hconns : ∀ c ctx, net.conns c = some ctx →
      ∃ ctx', s.net.conns c = some ctx' ∧ ctx'.fd = ctx.fd)
    {n : Int} {o : Nat} (h : Holds (s.withNet net) n o) :
    Holds s n o := by
  rcases h with ⟨c, ctx, hc, hfd, hfile⟩ | hsock
  · obtain ⟨ctx', hc', hfd'⟩ := hconns c ctx hc
    exact Or.inl ⟨c, ctx', hc', hfd'.trans hfd, hfile⟩
  · exact Or.inr hsock

/-- A socket changes fields other than its descriptor. -/
theorem holds_setSock
    {s : Layer} {k : Nat} {sock sock' : IxfdSockObj}
    (hk : s.socks k = some sock)
    (hfd : sock'.fd = sock.fd) (hfile : sock'.file = sock.file)
    {n : Int} {o : Nat} (h : Holds (s.setSock k sock') n o) :
    Holds s n o := by
  rcases h with hconn | ⟨j, x, hj, hn, ho⟩
  · exact Or.inl hconn
  · rcases update_eq_some hj with ⟨rfl, rfl⟩ | ⟨_, hold⟩
    · exact Or.inr ⟨j, sock, hk, hfd ▸ hn, hfile ▸ ho⟩
    · exact Or.inr ⟨j, x, hold, hn, ho⟩

/-- A socket gets a descriptor. -/
theorem holds_opened
    {s t : Layer} {k : Nat} {fd : Option Int}
    (hconns : t.net.conns = s.net.conns) (hfiles : t.file = s.file)
    (hsocks : ∃ sock, t.socks = Function.update s.socks k (some sock) ∧
      sock.fd = fd.getD (-1) ∧ sock.file = fd.map fun _ => s.net.nextConn)
    {n : Int} {o : Nat} (h : Holds t n o) :
    Holds s n o ∨ fd = some n ∧ o = s.net.nextConn := by
  obtain ⟨sock, hsocks, hfd, hfile⟩ := hsocks
  unfold Holds at h
  rw [hconns, hfiles, hsocks] at h
  rcases h with hconn | ⟨j, x, hj, hn, ho⟩
  · exact Or.inl (Or.inl hconn)
  · rcases update_eq_some hj with ⟨rfl, rfl⟩ | ⟨_, hold⟩
    · rw [hfile] at ho
      rcases Option.map_eq_some_iff.mp ho with ⟨m, rfl, rfl⟩
      rw [hfd, Option.getD_some] at hn
      exact Or.inr ⟨by rw [hn], rfl⟩
    · exact Or.inl (Or.inr ⟨j, x, hold, hn, ho⟩)

/-- A new context joins a holder of its number and file, if it has a file. -/
theorem holds_addConn
    {s t : Layer} {ctx : IxfdConnCtx} {file : Option Nat}
    (hconns : t.net.conns =
      Function.update s.net.conns s.net.nextConn (some ctx))
    (hfiles : t.file = Function.update s.file s.net.nextConn file)
    (hsocks : t.socks = s.socks)
    (hfile : ∀ o, file = some o → Holds s ctx.fd o)
    {n : Int} {o : Nat} (h : Holds t n o) :
    Holds s n o := by
  unfold Holds at h
  rw [hconns, hfiles, hsocks] at h
  rcases h with ⟨c, x, hc, hn, ho⟩ | hsock
  · rcases update_eq_some hc with ⟨rfl, rfl⟩ | ⟨hne, hold⟩
    · rw [Function.update_self] at ho
      exact hn ▸ hfile o ho
    · rw [Function.update_of_ne hne] at ho
      exact Or.inl ⟨c, x, hold, hn, ho⟩
  · exact Or.inr hsock

/-! ## One `close(2)` -/

/-- The state changes by one `close(2)`, recorded as `r`. -/
structure OneClose (s t : Layer) (r : CloseCall) : Prop where
  kernel : t.net.kernel = Function.update s.net.kernel r.fd none
  nextConn : t.net.nextConn = s.net.nextConn
  closes : t.closes = s.closes ++ [r]
  named : r.named = s.net.kernel r.fd
  holds : ∀ o, r.own = some o → Holds s r.fd o
  kept : ∀ n o, Holds t n o → Holds s n o

namespace OneClose

variable {s t : Layer} {r : CloseCall}

theorem closedFiles_eq (h : OneClose s t r) :
    closedFiles t = closedFiles s ++ r.own.toList := by
  unfold closedFiles
  rw [h.closes, List.filterMap_append]
  cases hown : r.own <;> simp [hown]

/-- The call hits its own file exactly if it is the first one for it. -/
theorem closesOwn_iff (h : OneClose s t r) (hs : Tracked s) :
    ClosesOwn r ↔ ∃ o, r.own = some o ∧ o ∉ closedFiles s := by
  apply exists_congr
  intro o
  apply and_congr_right
  intro hown
  rw [h.named]
  exact hs.names_iff (h.holds o hown)

theorem tracked (h : OneClose s t r) (hs : Tracked s) (hr : ClosesOwn r) :
    Tracked t := by
  rcases hr with ⟨o, hown, hname⟩
  have hclosed : ∀ p, p ∈ closedFiles t ↔ p ∈ closedFiles s ∨ p = o := by
    intro p
    rw [h.closedFiles_eq, hown]
    simp
  have hclose := (hs.mono h.kept).closeAt (h.named ▸ hname) hclosed
  unfold Tracked
  rw [h.kernel, h.nextConn]
  exact hclose

theorem ownedCloses_iff (h : OneClose s t r) :
    OwnedCloses t ↔ OwnedCloses s ∧ ClosesOwn r := by
  unfold OwnedCloses
  rw [h.closes, List.forall_mem_append]
  simp

end OneClose

/-! ## Steps of the connection layer -/

theorem closeCalls_of_log
    {s : Layer} {net : Net} {es : List Effect}
    (hlog : net.log = s.net.log ++ es) (hes : ∀ x ∈ es, x.closes = none) :
    s.closeCalls net = [] := by
  unfold Layer.closeCalls
  rw [hlog, List.drop_left, List.filterMap_eq_nil_iff]
  intro x hx
  have hnone := hes x hx
  cases x with
  | close c fd => cases hnone
  | _ => rfl

theorem closeCalls_close
    {s : Layer} {m : Net} (hm : Still s.net m) (c : Nat) (ctx : IxfdConnCtx) :
    s.closeCalls (ixfdCommonsockClose m c ctx) =
      [⟨.conn c, ctx.fd, s.file c, s.net.kernel ctx.fd⟩] := by
  rcases hm.log with ⟨es, hlog, hes⟩
  have hold : s.closeCalls m = [] := closeCalls_of_log hlog hes
  unfold Layer.closeCalls at hold ⊢
  rw [hlog, List.drop_left] at hold
  simp only [ixfdCommonsockClose, Net.emit_log, Net.setKernel_log,
    Net.setConn_log]
  rw [hlog, List.append_assoc, List.drop_left, List.filterMap_append, hold]
  rfl

theorem still_fd
    {s t : Net} (h : Still s t) {c : Nat} {ctx : IxfdConnCtx}
    (hc : t.conns c = some ctx) :
    ∃ ctx', s.conns c = some ctx' ∧ ctx'.fd = ctx.fd := by
  obtain ⟨ctx', hc', hfd, _⟩ := h.conn hc
  exact ⟨ctx', hc', hfd⟩

/-- The step issues no `close(2)` and keeps the ledger. -/
structure NoClose (s t : Layer) : Prop where
  closes : t.closes = s.closes
  tracked : Tracked s → Tracked t

theorem NoClose.trans
    {s m t : Layer} (h₁ : NoClose s m) (h₂ : NoClose m t) :
    NoClose s t where
  closes := h₂.closes.trans h₁.closes
  tracked hs := h₂.tracked (h₁.tracked hs)

/-- The table stays, and nobody gains a descriptor. -/
theorem noClose_of_kept
    {s t : Layer} (hcloses : t.closes = s.closes)
    (hkernel : t.net.kernel = s.net.kernel)
    (hnext : s.net.nextConn ≤ t.net.nextConn)
    (hkept : ∀ n o, Holds t n o → Holds s n o) :
    NoClose s t where
  closes := hcloses
  tracked hs := by
    have hclosed : closedFiles t = closedFiles s := by
      unfold closedFiles
      rw [hcloses]
    unfold Tracked
    rw [hkernel, hclosed]
    exact (hs.mono hkept).weaken fun o ho => lt_of_lt_of_le ho hnext

theorem noClose_still
    {s : Layer} {net : Net} (h : Still s.net net) :
    NoClose s (s.withNet net) := by
  rcases h.log with ⟨es, hlog, hes⟩
  apply noClose_of_kept
  · simp [closeCalls_of_log hlog hes]
  · exact h.kernel
  · exact h.nextConn.ge
  · intro n o hn
    exact holds_withNet (fun c ctx hc => still_fd h hc) hn

/-- The accept callback returns. -/
theorem noClose_activates
    {s : Layer} {c : Nat} {ctx : IxfdConnCtx} {stack : List Frame}
    (hc : s.net.conns c = some ctx) :
    NoClose s (s.withNet
      ((s.net.withStack stack).setConn c (activateCtx ctx))) := by
  have hcalls : s.closeCalls
      ((s.net.withStack stack).setConn c (activateCtx ctx)) = [] := by
    have hlog : ((s.net.withStack stack).setConn c (activateCtx ctx)).log =
        s.net.log ++ [] := by simp
    exact closeCalls_of_log hlog (by simp)
  apply noClose_of_kept
  · simp [hcalls]
  · rfl
  · exact le_rfl
  · intro n o hn
    refine holds_withNet ?_ hn
    intro d x hd
    rcases update_eq_some hd with ⟨rfl, rfl⟩ | ⟨_, hold⟩
    · exact ⟨ctx, hc, rfl⟩
    · exact ⟨x, hold, rfl⟩

theorem oneClose_conn
    {s : Layer} {m : Net} {c : Nat} {ctx : IxfdConnCtx}
    (hm : Still s.net m) (hc : m.conns c = some ctx) :
    OneClose s (s.withNet (ixfdCommonsockClose m c ctx))
      ⟨.conn c, ctx.fd, s.file c, s.net.kernel ctx.fd⟩ := by
  obtain ⟨ctx', hc', hfd⟩ := still_fd hm hc
  constructor
  · change Function.update m.kernel ctx.fd none = _
    rw [hm.kernel]
  · exact hm.nextConn
  · simp [closeCalls_close hm]
  · rfl
  · intro o ho
    exact Or.inl ⟨c, ctx', hc', hfd, ho⟩
  · intro n o hn
    refine holds_withNet ?_ hn
    intro d x hd
    rcases update_eq_some hd with ⟨rfl, rfl⟩ | ⟨_, hold⟩
    · exact ⟨ctx', hc', hfd⟩
    · exact still_fd hm hold

theorem oneClose_sock
    {s : Layer} {k : Nat} {sock : IxfdSockObj}
    (hk : s.socks k = some sock) :
    OneClose s (closeSockFd s k sock)
      ⟨.sock k, sock.fd, sock.file, s.net.kernel sock.fd⟩ where
  kernel := rfl
  nextConn := rfl
  closes := rfl
  named := rfl
  holds _ ho := Or.inr ⟨k, sock, hk, rfl, ho⟩
  kept _ _ hn := hn

/-! ## Steps that open -/

/-- `socket(2)` fails, or opens a new file under a free number for the caller. -/
theorem noClose_openFile
    {s t : Layer} {fd : Option Int}
    (hfd : socketRet s.net fd = true)
    (hnet : t.net = openFile s.net fd)
    (hcloses : t.closes = s.closes)
    (hkept : ∀ n o, Holds t n o →
      Holds s n o ∨ fd = some n ∧ o = s.net.nextConn) :
    NoClose s t := by
  cases fd with
  | none =>
      apply noClose_of_kept hcloses
      · rw [hnet]
        rfl
      · rw [hnet]
        exact le_rfl
      · intro n o hn
        rcases hkept n o hn with hold | ⟨hnone, _⟩
        · exact hold
        · cases hnone
  | some m =>
      refine ⟨hcloses, fun hs => ?_⟩
      have hclosed : closedFiles t = closedFiles s := by
        unfold closedFiles
        rw [hcloses]
      simp only [socketRet, Bool.and_eq_true, Option.isNone_iff_eq_none] at hfd
      unfold Tracked
      rw [hnet, hclosed]
      apply hs.openAt hfd.2 (lt_irrefl _)
      · exact fun p hp => Nat.lt_succ_of_lt hp
      · exact Nat.lt_succ_self _
      · intro n o hn
        rcases hkept n o hn with hold | ⟨hm, ho⟩
        · exact Or.inl hold
        · exact Or.inr ⟨(Option.some.inj hm).symm, ho⟩

@[simp] theorem openFile_conns (s : Net) (fd : Option Int) :
    (openFile s fd).conns = s.conns := by
  cases fd <;> rfl

@[simp] theorem openFile_stack (s : Net) (fd : Option Int) :
    (openFile s fd).stack = s.stack := by
  cases fd <;> rfl

theorem noClose_createnbind
    {s : Layer} {k : Nat} {sock : IxfdSockObj} {fd : Option Int}
    (hfd : socketRet s.net fd = true) (bindOk : Bool) :
    NoClose s (ixfdCommonsockTcpCreatenbind s k sock fd bindOk) := by
  refine noClose_openFile hfd (by rfl) rfl ?_
  intro n o hn
  refine holds_opened (k := k) ?_ ?_ ⟨_, rfl, ?_, ?_⟩ hn
  · exact openFile_conns s.net fd
  · rfl
  · cases bindOk <;> rfl
  · cases bindOk <;> rfl

theorem noClose_createnconnect
    {s : Layer} {k : Nat} {sock : IxfdSockObj} {fd : Option Int}
    (hfd : socketRet s.net fd = true) (cbConn cbFailed connecting : Bool) :
    NoClose s (ixfdCommonsockTcpCreatenconnect s k sock fd
      cbConn cbFailed connecting) := by
  refine noClose_openFile hfd (by rfl) rfl ?_
  intro n o hn
  refine holds_opened (k := k) ?_ ?_ ⟨_, rfl, rfl, rfl⟩ hn
  · exact openFile_conns s.net fd
  · rfl

/-- A context without a file, or with the number and the file of a socket. -/
theorem noClose_newConn
    {s : Layer} {net : Net} {fd : Int} {ctx : IxfdConnCtx}
    {file : Option Nat}
    (hnew : NewConn s.net net fd ctx) (k : Nat)
    (hkernel : net.kernel = s.net.kernel)
    (hfile : ∀ o, file = some o → Holds s fd o) :
    NoClose s ((s.withNet net).own s.net.nextConn k file) := by
  rcases hnew.log with ⟨es, hlog, hes⟩
  apply noClose_of_kept
  · change s.closes ++ s.closeCalls net = s.closes
    rw [closeCalls_of_log hlog hes, List.append_nil]
  · exact hkernel
  · change s.net.nextConn ≤ net.nextConn
    rw [hnew.nextConn]
    exact Nat.le_succ _
  · intro n o hn
    refine holds_addConn (t := (s.withNet net).own s.net.nextConn k file)
      hnew.conns rfl rfl ?_ hn
    rw [hnew.fd]
    exact hfile

/-- An accepted connection gets a new file under a free number. -/
theorem noClose_accept
    {s : Layer} {net : Net} {fd : Int} {ctx : IxfdConnCtx} {k : Nat}
    (hnew : NewConn s.net net fd ctx)
    (hfree : s.net.kernel fd = none)
    (hkernel : net.kernel =
      Function.update s.net.kernel fd (some s.net.nextConn)) :
    NoClose s ((s.withNet net).own s.net.nextConn k (some s.net.nextConn)) := by
  rcases hnew.log with ⟨es, hlog, hes⟩
  have hcloses : ((s.withNet net).own s.net.nextConn k
      (some s.net.nextConn)).closes = s.closes := by
    change s.closes ++ s.closeCalls net = s.closes
    rw [closeCalls_of_log hlog hes, List.append_nil]
  refine ⟨hcloses, fun hs => ?_⟩
  unfold Tracked closedFiles
  rw [hcloses]
  change Ledger net.kernel _ _ (· < net.nextConn)
  rw [hkernel, hnew.nextConn]
  apply hs.openAt hfree (lt_irrefl _)
  · exact fun p hp => Nat.lt_succ_of_lt hp
  · exact Nat.lt_succ_self _
  · intro n o hn
    rcases hn with ⟨c, x, hc, hfd, hfile⟩ | hsock
    · change net.conns c = some x at hc
      change Function.update s.file s.net.nextConn (some s.net.nextConn) c =
        some o at hfile
      rw [hnew.conns] at hc
      rcases update_eq_some hc with ⟨rfl, rfl⟩ | ⟨hne, hold⟩
      · rw [Function.update_self] at hfile
        cases hfile
        exact Or.inr ⟨hfd.symm.trans hnew.fd, rfl⟩
      · rw [Function.update_of_ne hne] at hfile
        exact Or.inl (Or.inl ⟨c, x, hold, hfd, hfile⟩)
    · exact Or.inl (Or.inr hsock)

/-- The other fields of a socket change. -/
theorem noClose_setSock
    {s : Layer} {k : Nat} {sock : IxfdSockObj}
    (hk : s.socks k = some sock) (sock' : IxfdSockObj)
    (hfd : sock'.fd = sock.fd) (hfile : sock'.file = sock.file) :
    NoClose s (s.setSock k sock') :=
  noClose_of_kept rfl rfl le_rfl fun _ _ hn => holds_setSock hk hfd hfile hn

/-! ## Every step -/

/-- The steps, seen from the descriptor table. -/
inductive CloseMove (s : Layer) (l : Label) (t : Layer) : Prop
  | none (hnone : closing s l = []) (h : NoClose s t)
  | one {x : Closer} {r : CloseCall}
      (hone : closing s l = [x]) (h : OneClose s t r)
      (hown : r.own = opened s x)
  | two {x y : Closer} {r q : CloseCall} {m : Layer}
      (htwo : closing s l = [x, y])
      (h₁ : OneClose s m r) (h₂ : OneClose m t q)
      (hr : r.own = opened s x) (hq : q.own = opened s y)

theorem closeMove_conn
    {s : Layer} {net : Net} {l : Sock.Label}
    (hok : connEnabled s l = true)
    (hnet : Sock.step (connSock s l) s.net l = some net) :
    CloseMove s (.conn l) (s.withNet net) := by
  cases connMove_of_conn hok hnet with
  | still hnone h => exact .none (by simp [closing, hnone]) (noClose_still h)
  | closes hsome h hc =>
      exact .one (x := .conn _) (by simp [closing, hsome])
        (oneClose_conn h hc) rfl
  | activates hnone _ hc =>
      exact .none (by simp [closing, hnone]) (noClose_activates hc)

/-- What `ixfd_commonsock_disconnect` does before it closes the socket. -/
theorem closesDefault_cases
    {s : Layer} {k : Nat} {sock : IxfdSockObj}
    (hk : s.socks k = some sock) :
    (∃ c ctx, s.net.conns c = some ctx ∧ closesDefault s k = some c ∧
      closeDefault s sock = s.withNet (ixfdCommonsockClose s.net c ctx)) ∨
    (closesDefault s k = none ∧ closeDefault s sock = s) := by
  rcases closeDefault_cases s sock with
    ⟨c, ctx, hdef, hactive, heq⟩ | ⟨hoff, heq⟩
  · refine Or.inl ⟨c, ctx, (defaultConn_eq_some hdef).2.2, ?_, heq⟩
    simp [closesDefault, hk, hdef, hactive]
  · refine Or.inr ⟨?_, heq⟩
    unfold closesDefault
    rw [hk, Option.bind_some]
    cases hdef : defaultConn s sock with
    | none => rfl
    | some p => simp [hoff p.1 p.2 hdef]

theorem closeMove_disconnect
    {s : Layer} {k : Nat} {sock : IxfdSockObj}
    (hk : s.socks k = some sock) :
    CloseMove s (.disconnect k) (ixfdCommonsockDisconnect s k sock) := by
  have hopened : opened s (.sock k) = sock.file := by simp [opened, hk]
  unfold ixfdCommonsockDisconnect
  rcases closesDefault_cases hk with ⟨c, ctx, hc, hcloses, heq⟩ | ⟨hcloses, heq⟩
  · rw [heq]
    refine .two (x := .conn c) (y := .sock k) ?_
      (oneClose_conn (Still.refl s.net) hc) (oneClose_sock hk)
      rfl hopened.symm
    simp [closing, hcloses]
  · rw [heq]
    refine .one (x := .sock k) ?_ (oneClose_sock hk) hopened.symm
    simp [closing, hcloses]

theorem noClose_freectx
    (s : Layer) (c : Nat) (ctx : IxfdConnCtx) :
    NoClose s (ixfdCommonsockFreectx s c ctx) :=
  noClose_of_kept rfl rfl le_rfl fun _ _ hn => hn

theorem noClose_free
    (s : Layer) (k : Nat) (sock : IxfdSockObj) :
    NoClose s (ixfdCommonsockFree s k sock) := by
  have hdef : NoClose s (freeDefault s sock) := by
    rcases freeDefault_cases s sock with ⟨c, ctx, _, heq⟩ | ⟨_, heq⟩
    · rw [heq]
      exact noClose_freectx s c ctx
    · rw [heq]
      exact noClose_of_kept rfl rfl le_rfl fun _ _ hn => hn
  exact hdef.trans (noClose_of_kept rfl rfl le_rfl fun _ _ hn => hn)

theorem noClose_connectCb
    {s : Layer} {a : Nat} {args : IxfdConnectArgs} {sock : IxfdSockObj}
    (hk : s.socks args.sock = some sock) (failed mallocOk : Bool) :
    NoClose s (ixfdCommonsockConnectCb s a args sock failed mallocOk) := by
  have hend : ∀ m : Layer, NoClose m (endConnectCb m a args) ∧
      NoClose m { m with reporting := some a } := by
    intro m
    exact ⟨noClose_of_kept rfl rfl le_rfl fun _ _ hn => hn,
      noClose_of_kept rfl rfl le_rfl fun _ _ hn => hn⟩
  unfold ixfdCommonsockConnectCb
  split
  · split
    · exact (hend s).2
    · exact (hend s).1
  · have hnew := newConn_connectCb s.net sock mallocOk
    have hfile : ∀ o, sock.file = some o → Holds s sock.fd o :=
      fun o ho => Or.inr ⟨args.sock, sock, hk, rfl, ho⟩
    have hconn := noClose_newConn hnew args.sock rfl hfile
    have hsock := hconn.trans (noClose_setSock
      (s := (s.withNet _).own s.net.nextConn args.sock sock.file)
      (k := args.sock) hk
      { sock with
        type := .tcp
        defaultCtx := some s.net.nextConn } rfl rfl)
    split
    · exact hsock.trans (hend _).2
    · exact hsock.trans (hend _).1

/-- A socket that was made has no file. -/
theorem noClose_create (s : Layer) :
    NoClose s (ixfdCommonsockCreate s) := by
  refine noClose_of_kept rfl rfl le_rfl ?_
  rintro n o (hconn | ⟨k, sock, hk, hn, ho⟩)
  · exact Or.inl hconn
  · rcases update_eq_some hk with ⟨_, rfl⟩ | ⟨_, hold⟩
    · cases ho
    · exact Or.inr ⟨k, sock, hold, hn, ho⟩

/-- `ixfd_commonsock_unbind` stops the accept watcher first. -/
theorem closeMove_unbind
    {s : Layer} {k : Nat} {sock : IxfdSockObj}
    (hk : s.socks k = some sock) :
    CloseMove s (.unbind k) (ixfdCommonsockUnbind s k sock) := by
  have hopened : opened s (.sock k) = sock.file := by simp [opened, hk]
  refine .one (x := .sock k) rfl
    (r := ⟨.sock k, sock.fd, sock.file, s.net.kernel sock.fd⟩) ?_ hopened.symm
  constructor
  · rfl
  · rfl
  · rfl
  · rfl
  · intro o ho
    exact Or.inr ⟨k, sock, hk, rfl, ho⟩
  · intro n o hn
    have hset : Holds (s.setSock k { sock with
        eventAccept := sock.eventAccept.map EvIo.stop
        listens := false }) n o := hn
    exact holds_setSock hk (by rfl) (by rfl) hset

theorem closeMove_of_step
    {s t : Layer} {l : Label} (ht : step s l = some t) :
    CloseMove s l t := by
  cases move_of_step ht with
  | conn hok hnet => exact closeMove_conn hok hnet
  | create => exact .none rfl (noClose_create s)
  | configure hk => exact .none rfl (noClose_setSock hk _ rfl rfl)
  | createnbind hk htype hfd => exact .none rfl (noClose_createnbind hfd _)
  | createnconnect hk htype hfd =>
      exact .none rfl (noClose_createnconnect hfd _ _ _)
  | listen hk htype haccept => exact .none rfl (noClose_setSock hk _ rfl rfl)
  | unbind hk => exact closeMove_unbind hk
  | disconnect hk => exact closeMove_disconnect hk
  | freectx hc hfreed => exact .none rfl (noClose_freectx s _ _)
  | free hk => exact .none rfl (noClose_free s _ _)
  | accept hk hidle hnet =>
      obtain ⟨_, hfree, rfl⟩ := accept_eq_some hnet
      obtain ⟨ctx, hnew⟩ := newConn_acceptCb _ s.net _ _
      exact .none rfl (noClose_accept hnew hfree (kernel_acceptCb ..))
  | acceptFailed hk hidle =>
      obtain ⟨ctx, hnew⟩ := newConn_acceptFailed _ s.net _
      exact .none rfl
        (noClose_newConn hnew _ (kernel_acceptFailed ..) (by simp))
  | connectReady ha hk hidle hactive =>
      exact .none rfl (noClose_connectCb hk _ _)
  | connectReturns ha hreporting hstack =>
      exact .none rfl (noClose_of_kept rfl rfl le_rfl fun _ _ hn => hn)

/-- One step decides whether the closes stay owned. -/
theorem ownedCloses_step_iff
    {s t : Layer} {l : Label}
    (hs : Tracked s) (ho : OwnedCloses s) (ht : step s l = some t) :
    OwnedCloses t ↔ FirstClose s l := by
  cases closeMove_of_step ht with
  | none hnone h =>
      have ho' : OwnedCloses t := by
        intro r hr
        exact ho r (h.closes ▸ hr)
      unfold FirstClose
      rw [hnone]
      simp [ho']
  | one hone h hown =>
      rw [h.ownedCloses_iff, h.closesOwn_iff hs, hown]
      unfold FirstClose
      rw [hone]
      simp [ho]
  | @two x y r q m htwo h₁ h₂ hr hq =>
      rw [h₂.ownedCloses_iff, h₁.ownedCloses_iff]
      unfold FirstClose
      rw [htwo]
      have hfirst := h₁.closesOwn_iff hs
      rw [hr] at hfirst
      constructor
      · rintro ⟨⟨_, hr'⟩, hq'⟩
        obtain ⟨o, hx, hxo⟩ := hfirst.mp hr'
        obtain ⟨p, hy, hyp⟩ := (h₂.closesOwn_iff (h₁.tracked hs hr')).mp hq'
        rw [hq] at hy
        rw [h₁.closedFiles_eq, hr, hx] at hyp
        simp only [Option.toList_some, List.mem_append, List.mem_singleton,
          not_or] at hyp
        refine ⟨?_, ?_⟩
        · simp [hx, hy, Ne.symm hyp.2]
        · simp [hx, hy, hxo, hyp.1]
      · rintro ⟨hnodup, hall⟩
        obtain ⟨o, hx, hxo⟩ := hall x (by simp)
        obtain ⟨p, hy, hyp⟩ := hall y (by simp)
        have hr' : ClosesOwn r := hfirst.mpr ⟨o, hx, hxo⟩
        refine ⟨⟨ho, hr'⟩, ?_⟩
        apply (h₂.closesOwn_iff (h₁.tracked hs hr')).mpr
        refine ⟨p, hq.trans hy, ?_⟩
        rw [h₁.closedFiles_eq, hr, hx]
        have hne : o ≠ p := by
          rintro rfl
          simp [hx, hy] at hnodup
        simp [hyp, Ne.symm hne]

theorem tracked_step
    {s t : Layer} {l : Label}
    (hs : Tracked s) (ho : OwnedCloses t) (ht : step s l = some t) :
    Tracked t := by
  cases closeMove_of_step ht with
  | none hnone h => exact h.tracked hs
  | one hone h hown => exact h.tracked hs (h.ownedCloses_iff.mp ho).2
  | two htwo h₁ h₂ hr hq =>
      obtain ⟨ho', hq'⟩ := h₂.ownedCloses_iff.mp ho
      have hr' := (h₁.ownedCloses_iff.mp ho').2
      exact h₂.tracked (h₁.tracked hs hr') hq'

end Socket
end Iojxd
