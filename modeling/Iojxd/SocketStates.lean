import Iojxd.SockFrames
import Iojxd.SocketDescriptors
import Iojxd.SocketWatchers

/-!
# The state of a connection

Between events a context is active exactly if its read watcher is started, and
that exactly if its descriptor is open.  Inside its accept callback a context
has an open descriptor and is not active yet; the code after the callback
activates it, whatever the callback did.

The states of contexts are followed while their storage is theirs: a released
context that the code goes on to use may be another connection's by then.
-/

namespace Iojxd
namespace Socket

open Sock TransitionRun

/-- The number of the context names the file that it was opened for. -/
def DescriptorOpen (kernel : Int → Option Nat) (file : Nat → Option Nat)
    (c : Nat) (ctx : IxfdConnCtx) : Prop :=
  ∃ o, file c = some o ∧ kernel ctx.fd = some o

/-- The context is active, or its accept callback runs. -/
def InUse (s : Net) (c : Nat) (ctx : IxfdConnCtx) : Prop :=
  ctx.active = true ∨ .acceptDone c ∈ s.stack

/-- The number that a context or a socket closes. -/
def closedNumber (s : Layer) : Closer → Option Int
  | .conn c => (s.net.conns c).map IxfdConnCtx.fd
  | .sock k => (s.socks k).map IxfdSockObj.fd

/-- The contexts that an operation of the application releases. -/
def releasing (s : Layer) : Label → List Nat
  | .freectx c => [c]
  | .free k => (((s.socks k).bind (defaultConn s)).map Prod.fst).toList
  | _ => []

/-- Storage is released only when nothing goes on to use it: `write_cb` finishes
no entry, contexts and sockets are freed with their watchers stopped, a context
outside the callbacks after which it is used, and a socket with or after all of
its contexts. -/
structure KeepsStorage (s : Layer) (l : Label) : Prop where
  unfinished : ∀ k, l = .conn k → finishes s.net k = false
  stopped : FreesStopped s l
  unused : ∀ c ∈ releasing s l, ∀ frame ∈ s.net.stack, frame.resumes ≠ some c
  outlives : ∀ k, l = .free k → ∀ c, s.owner c = some k →
    s.freedCtx c = true ∨ c ∈ releasing s l

/-- What the operations must respect: `accept(2)` succeeds, no context is closed
inside its accept callback, no operation closes the number of a connection in
use that it does not close itself, a connect attempt succeeds while the
descriptor of its socket is open, and no storage is released that is used. -/
structure KeepsStates (s : Layer) (l : Label) : Prop where
  accepts : ∀ k mallocOk, l ≠ .acceptFailed k mallocOk
  outside : ∀ c, .conn c ∈ closing s l → .acceptDone c ∉ s.net.stack
  unshared : ∀ x ∈ closing s l, ∀ n, closedNumber s x = some n →
    ∀ d ctx, s.net.conns d = some ctx → InUse s.net d ctx →
      .conn d ∉ closing s l → ctx.fd ≠ n
  connects : ∀ a mallocOk, l = .connectReady a false mallocOk →
    ∀ args sock, s.attempts a = some args →
      s.socks args.sock = some sock →
      ∃ o, sock.file = some o ∧ s.net.kernel sock.fd = some o
  storage : KeepsStorage s l

/-- The invariant of the contexts and the descriptor table. -/
structure ReadSide (s : Net) (file : Nat → Option Nat) : Prop where
  fileLt : ∀ c o, file c = some o → o < s.nextConn
  inUse : ∀ c ctx, s.conns c = some ctx → InUse s c ctx →
    DescriptorOpen s.kernel file c ctx
  unused : ∀ c ctx, s.conns c = some ctx → ¬ InUse s c ctx →
    ¬ DescriptorOpen s.kernel file c ctx

/-- The table gains at most the file with the next number. -/
structure Grows (s t : Net) : Prop where
  kept : ∀ n o, s.kernel n = some o → t.kernel n = some o
  new : ∀ n o, t.kernel n = some o → s.kernel n = some o ∨ o = s.nextConn
  nextConn : s.nextConn ≤ t.nextConn

namespace ReadSide

variable {s t : Net} {file : Nat → Option Nat}

/-- Only numbers, flags, the table and the accept callbacks matter. -/
theorem still (h : ReadSide s file) (hst : Still s t) :
    ReadSide t file := by
  have hold : ∀ c ctx, t.conns c = some ctx →
      ∃ x, s.conns c = some x ∧ x.fd = ctx.fd ∧
        (InUse t c ctx ↔ InUse s c x) := by
    intro c ctx hc
    obtain ⟨x, hx, hfd, hactive⟩ := hst.conn hc
    refine ⟨x, hx, hfd, ?_⟩
    unfold InUse
    rw [hactive, hst.accepting]
  constructor
  · intro c o ho
    rw [hst.nextConn]
    exact h.fileLt c o ho
  · intro c ctx hc huse
    obtain ⟨x, hx, hfd, hiff⟩ := hold c ctx hc
    unfold DescriptorOpen
    rw [hst.kernel, ← hfd]
    exact h.inUse c x hx (hiff.mp huse)
  · intro c ctx hc huse
    obtain ⟨x, hx, hfd, hiff⟩ := hold c ctx hc
    unfold DescriptorOpen
    rw [hst.kernel, ← hfd]
    exact h.unused c x hx fun hu => huse (hiff.mpr hu)

/-- The number `n` is closed; no connection in use has it. -/
theorem closeNumber
    (h : ReadSide s file) {n : Int}
    (hfree : ∀ d ctx, s.conns d = some ctx → InUse s d ctx → ctx.fd ≠ n) :
    ReadSide (s.setKernel n none) file where
  fileLt := h.fileLt
  inUse := by
    intro c ctx hc huse
    rcases h.inUse c ctx hc huse with ⟨o, hfile, hname⟩
    refine ⟨o, hfile, ?_⟩
    rw [Net.setKernel_kernel, Function.update_of_ne (hfree c ctx hc huse)]
    exact hname
  unused := by
    rintro c ctx hc huse ⟨o, hfile, hname⟩
    have hold := DescriptorLedger.Ledger.of_update_none hname
    exact h.unused c ctx hc huse ⟨o, hfile, hold.2⟩

/-- A context outside its accept callback is closed; no other connection in use
has its number. -/
theorem close
    (h : ReadSide s file) {c : Nat} {ctx : IxfdConnCtx}
    (hc : s.conns c = some ctx) (hout : .acceptDone c ∉ s.stack)
    (hfree : ∀ d x, s.conns d = some x → InUse s d x → d ≠ c →
      x.fd ≠ ctx.fd) :
    ReadSide (ixfdCommonsockClose s c ctx) file := by
  constructor
  · exact h.fileLt
  · intro d x hd huse
    rcases update_eq_some hd with ⟨rfl, rfl⟩ | ⟨hdc, hd'⟩
    · rcases huse with hactive | hacc
      · cases hactive
      · exact absurd hacc hout
    · rcases h.inUse d x hd' huse with ⟨o, hfile, hname⟩
      refine ⟨o, hfile, ?_⟩
      change Function.update s.kernel ctx.fd none x.fd = some o
      rw [Function.update_of_ne (hfree d x hd' huse hdc)]
      exact hname
  · rintro d x hd huse ⟨o, hfile, hname⟩
    change Function.update s.kernel ctx.fd none x.fd = some o at hname
    obtain ⟨hne, hname'⟩ := DescriptorLedger.Ledger.of_update_none hname
    rcases update_eq_some hd with ⟨rfl, rfl⟩ | ⟨hdc, hd'⟩
    · exact hne rfl
    · exact h.unused d x hd' huse ⟨o, hfile, hname'⟩

/-- The accept callback of a context returns. -/
theorem activate
    (h : ReadSide s file) {c : Nat} {ctx : IxfdConnCtx} {stack : List Frame}
    (hc : s.conns c = some ctx) (hstack : s.stack = .acceptDone c :: stack) :
    ReadSide ((s.withStack stack).setConn c (activateCtx ctx)) file := by
  have huses : ∀ d x, d ≠ c →
      (InUse ((s.withStack stack).setConn c (activateCtx ctx)) d x ↔
        InUse s d x) := by
    intro d x hdc
    unfold InUse
    rw [hstack, List.mem_cons]
    change x.active = true ∨ Frame.acceptDone d ∈ stack ↔ _
    simp [hdc]
  constructor
  · exact h.fileLt
  · intro d x hd huse
    rcases update_eq_some hd with ⟨rfl, rfl⟩ | ⟨hdc, hd'⟩
    · exact h.inUse d ctx hc (Or.inr (by simp [hstack]))
    · exact h.inUse d x hd' ((huses d x hdc).mp huse)
  · intro d x hd huse
    rcases update_eq_some hd with ⟨rfl, rfl⟩ | ⟨hdc, hd'⟩
    · exact absurd (Or.inl rfl) huse
    · exact h.unused d x hd' fun hu => huse ((huses d x hdc).mpr hu)

theorem descriptorOpen_grows
    (h : ReadSide s file) (hg : Grows s t) (c : Nat) (ctx : IxfdConnCtx) :
    DescriptorOpen t.kernel file c ctx ↔
      DescriptorOpen s.kernel file c ctx := by
  apply exists_congr
  intro o
  apply and_congr_right
  intro hfile
  refine ⟨fun hname => ?_, hg.kept _ _⟩
  rcases hg.new _ _ hname with hold | rfl
  · exact hold
  · exact absurd (h.fileLt c _ hfile) (lt_irrefl _)

theorem grow
    (h : ReadSide s file) (hg : Grows s t)
    (hconns : t.conns = s.conns) (hstack : t.stack = s.stack) :
    ReadSide t file where
  fileLt c o ho := lt_of_lt_of_le (h.fileLt c o ho) hg.nextConn
  inUse := by
    intro c ctx hc huse
    rw [h.descriptorOpen_grows hg]
    unfold InUse at huse
    rw [hconns] at hc
    rw [hstack] at huse
    exact h.inUse c ctx hc huse
  unused := by
    intro c ctx hc huse
    rw [h.descriptorOpen_grows hg]
    unfold InUse at huse
    rw [hconns] at hc
    rw [hstack] at huse
    exact h.unused c ctx hc huse

/-- A context is made for an open descriptor. -/
theorem newConn
    (h : ReadSide s file) (hg : Grows s t) {fd : Int} {ctx : IxfdConnCtx}
    (hnew : NewConn s t fd ctx) {o : Nat} (ho : o < t.nextConn)
    (hopen : t.kernel fd = some o) :
    ReadSide t (Function.update file s.nextConn (some o)) := by
  have hfile : ∀ c, c ≠ s.nextConn →
      Function.update file s.nextConn (some o) c = file c := fun c hc =>
    Function.update_of_ne hc ..
  have hother : ∀ c x, c ≠ s.nextConn →
      (InUse t c x ↔ InUse s c x) ∧
        (DescriptorOpen t.kernel (Function.update file s.nextConn (some o)) c x ↔
          DescriptorOpen s.kernel file c x) := by
    intro c x hc
    constructor
    · unfold InUse
      rcases hnew.entered with ⟨_, hstack⟩ | ⟨_, hstack⟩
      · rw [hstack, List.mem_cons]
        simp [hc]
      · rw [hstack]
    · rw [← h.descriptorOpen_grows hg]
      unfold DescriptorOpen
      rw [hfile c hc]
  constructor
  · intro c p hp
    by_cases hc : c = s.nextConn
    · subst hc
      rw [Function.update_self] at hp
      cases hp
      exact ho
    · rw [hfile c hc] at hp
      exact lt_of_lt_of_le (h.fileLt c p hp) hg.nextConn
  · intro c x hc huse
    rw [hnew.conns] at hc
    rcases update_eq_some hc with ⟨rfl, rfl⟩ | ⟨hne, hold⟩
    · exact ⟨o, Function.update_self .., hnew.fd ▸ hopen⟩
    · rw [(hother c x hne).2]
      exact h.inUse c x hold ((hother c x hne).1.mp huse)
  · intro c x hc huse
    rw [hnew.conns] at hc
    rcases update_eq_some hc with ⟨rfl, rfl⟩ | ⟨hne, hold⟩
    · -- a new context is in use
      exfalso
      apply huse
      rcases hnew.entered with ⟨_, hstack⟩ | ⟨hactive, _⟩
      · exact Or.inr (by simp [hstack])
      · exact Or.inl hactive
    · rw [(hother c x hne).2]
      exact h.unused c x hold fun hu => huse ((hother c x hne).1.mpr hu)

end ReadSide

/-! ## Steps -/

theorem grows_openFile
    {s : Net} {fd : Option Int} (hfd : socketRet s fd = true) :
    Grows s (openFile s fd) := by
  cases fd with
  | none => exact ⟨fun _ _ h => h, fun _ _ h => Or.inl h, le_rfl⟩
  | some m =>
      simp only [socketRet, Bool.and_eq_true, Option.isNone_iff_eq_none] at hfd
      refine ⟨?_, ?_, Nat.le_succ _⟩
      · intro n o hname
        have hne : n ≠ m := by
          rintro rfl
          rw [hfd.2] at hname
          cases hname
        change Function.update s.kernel m _ n = some o
        rw [Function.update_of_ne hne]
        exact hname
      · intro n o hname
        rcases update_eq_some hname with ⟨_, ho⟩ | ⟨_, hold⟩
        · exact Or.inr ho
        · exact Or.inl hold

theorem readSide_openFile
    {s : Net} {file : Nat → Option Nat} {fd : Option Int}
    (h : ReadSide s file) (hfd : socketRet s fd = true) :
    ReadSide (openFile s fd) file := by
  apply h.grow (grows_openFile hfd)
  · exact openFile_conns s fd
  · exact openFile_stack s fd

theorem grows_acceptCb
    {sock : IxfdSock} {s : Net} {fd : Int} {mallocOk : Bool}
    (hfree : s.kernel fd = none) :
    Grows s (ixfdCommonsockAcceptCb sock s fd mallocOk) := by
  obtain ⟨ctx, hnew⟩ := newConn_acceptCb sock s fd mallocOk
  have hkernel := kernel_acceptCb sock s fd mallocOk
  refine ⟨?_, ?_, ?_⟩
  · intro n o hname
    have hne : n ≠ fd := by
      rintro rfl
      rw [hfree] at hname
      cases hname
    rw [hkernel, Function.update_of_ne hne]
    exact hname
  · intro n o hname
    rw [hkernel] at hname
    rcases update_eq_some hname with ⟨_, ho⟩ | ⟨_, hold⟩
    · exact Or.inr ho
    · exact Or.inl hold
  · rw [hnew.nextConn]
    exact Nat.le_succ _

/-- The files of sockets have numbers below `nextConn`. -/
def SockFiles (s : Layer) : Prop :=
  ∀ k sock o, s.socks k = some sock → sock.file = some o → o < s.net.nextConn

namespace SockFiles

variable {s t : Layer}

theorem mono
    (h : SockFiles s) (hsocks : t.socks = s.socks)
    (hnext : s.net.nextConn ≤ t.net.nextConn) :
    SockFiles t := by
  intro k sock o hk ho
  rw [hsocks] at hk
  exact lt_of_lt_of_le (h k sock o hk ho) hnext

theorem setSock
    (h : SockFiles s) (k : Nat) (sock : IxfdSockObj)
    (hsock : ∀ o, sock.file = some o → o < s.net.nextConn) :
    SockFiles (s.setSock k sock) := by
  intro j x o hj ho
  rcases update_eq_some hj with ⟨_, rfl⟩ | ⟨_, hold⟩
  · exact hsock o ho
  · exact h j x o hold ho

/-- A socket keeps its file. -/
theorem keepsFile
    (h : SockFiles s) {k : Nat} {sock sock' : IxfdSockObj}
    (hk : s.socks k = some sock) (hfile : sock'.file = sock.file) :
    SockFiles (s.setSock k sock') := by
  apply h.setSock
  intro o ho
  rw [hfile] at ho
  exact h k sock o hk ho

/-- A socket gets a descriptor. -/
theorem opened
    (h : SockFiles s) (fd : Option Int) :
    SockFiles { s with net := openFile s.net fd } ∧
      ∀ o, (fd.map fun _ => s.net.nextConn) = some o →
        o < (openFile s.net fd).nextConn := by
  cases fd with
  | none => exact ⟨h, by simp⟩
  | some m =>
      refine ⟨h.mono rfl (Nat.le_succ _), ?_⟩
      rintro o ⟨⟩
      exact Nat.lt_succ_self _

end SockFiles

/-- The invariant of the socket layer. -/
structure Settled (s : Layer) : Prop where
  awake : Awake s.net
  read : ReadSide s.net s.file
  socks : SockFiles s

section Steps

variable {s t : Layer}

/-- What `KeepsStates` says about one context that is closed, after steps that
leave the read side alone. -/
theorem readSide_closeConn
    {m : Net} (h : ReadSide s.net s.file) {l : Label}
    (hkeeps : KeepsStates s l) (hm : Still s.net m)
    {c : Nat} {ctx : IxfdConnCtx} (hc : m.conns c = some ctx)
    (hmem : .conn c ∈ closing s l)
    (honly : ∀ d, .conn d ∈ closing s l → d = c) :
    ReadSide (ixfdCommonsockClose m c ctx) s.file := by
  obtain ⟨x, hx, hfd, _⟩ := hm.conn hc
  have hnum : closedNumber s (.conn c) = some ctx.fd := by
    simp [closedNumber, hx, hfd]
  apply (h.still hm).close hc
  · rw [hm.accepting]
    exact hkeeps.outside c hmem
  · intro d y hd huse hdc
    obtain ⟨z, hz, hzfd, hzactive⟩ := hm.conn hd
    have huse' : InUse s.net d z := by
      unfold InUse at huse ⊢
      rwa [hzactive, ← hm.accepting]
    have hne := hkeeps.unshared _ hmem _ hnum d z hz huse'
      (fun hmem' => hdc (honly d hmem'))
    rwa [hzfd] at hne

theorem readSide_conn
    (h : ReadSide s.net s.file) {l : Sock.Label} {net : Net}
    (hkeeps : KeepsStates s (.conn l))
    (hok : connEnabled s l = true)
    (hnet : Sock.step (connSock s l) s.net l = some net) :
    ReadSide net s.file ∧ net.nextConn = s.net.nextConn := by
  cases connMove_of_conn hok hnet with
  | still hnone hst => exact ⟨h.still hst, hst.nextConn⟩
  | @closes m c ctx hsome hst hc =>
      have hclosing : closing s (.conn l) = [.conn c] := by
        simp [closing, hsome]
      refine ⟨readSide_closeConn h hkeeps hst hc ?_ ?_, hst.nextConn⟩
      · simp [hclosing]
      · intro d hd
        simpa [hclosing] using hd
  | activates hnone hstack hc => exact ⟨h.activate hc hstack, rfl⟩

theorem readSide_unbind
    (h : ReadSide s.net s.file) {k : Nat} {sock : IxfdSockObj}
    (hkeeps : KeepsStates s (.unbind k)) (hk : s.socks k = some sock) :
    ReadSide (ixfdCommonsockUnbind s k sock).net s.file := by
  apply h.closeNumber
  intro d ctx hd huse
  apply hkeeps.unshared (.sock k) (by simp [closing]) sock.fd _ d ctx hd huse
  · simp [closing]
  · simp [closedNumber, hk]

theorem readSide_disconnect
    (h : ReadSide s.net s.file) {k : Nat} {sock : IxfdSockObj}
    (hkeeps : KeepsStates s (.disconnect k)) (hk : s.socks k = some sock) :
    ReadSide (ixfdCommonsockDisconnect s k sock).net s.file := by
  have hnum : closedNumber s (.sock k) = some sock.fd := by
    simp [closedNumber, hk]
  have hsock : .sock k ∈ closing s (.disconnect k) := by simp [closing]
  unfold ixfdCommonsockDisconnect
  rcases closesDefault_cases hk with ⟨c, ctx, hc, hcloses, heq⟩ | ⟨hcloses, heq⟩
  · have hclosing : closing s (.disconnect k) = [.conn c, .sock k] := by
      simp [closing, hcloses]
    have hmem : .conn c ∈ closing s (.disconnect k) := by simp [hclosing]
    have hclose := readSide_closeConn h hkeeps (Still.refl s.net) hc hmem
      (by simp [hclosing])
    rw [heq]
    apply hclose.closeNumber
    intro d x hd huse
    rcases update_eq_some hd with ⟨rfl, rfl⟩ | ⟨hdc, hold⟩
    · -- the closed context is not in use
      exfalso
      rcases huse with hflag | hacc
      · cases hflag
      · exact hkeeps.outside d hmem hacc
    · apply hkeeps.unshared _ hsock _ hnum d x hold huse
      simp [hclosing, hdc]
  · have hclosing : closing s (.disconnect k) = [.sock k] := by
      simp [closing, hcloses]
    rw [heq]
    apply h.closeNumber
    intro d ctx hd huse
    apply hkeeps.unshared _ hsock _ hnum d ctx hd huse
    simp [hclosing]

theorem disconnect_kept
    (s : Layer) (k : Nat) (sock : IxfdSockObj) :
    (ixfdCommonsockDisconnect s k sock).socks = s.socks ∧
      (ixfdCommonsockDisconnect s k sock).file = s.file ∧
      (ixfdCommonsockDisconnect s k sock).net.nextConn = s.net.nextConn := by
  unfold ixfdCommonsockDisconnect
  rcases closeDefault_cases s sock with ⟨c, ctx, _, _, heq⟩ | ⟨_, heq⟩
  · rw [heq]
    exact ⟨rfl, rfl, rfl⟩
  · rw [heq]
    exact ⟨rfl, rfl, rfl⟩

theorem readSide_free
    (h : ReadSide s.net s.file) (hsocks : SockFiles s)
    (k : Nat) (sock : IxfdSockObj) :
    ReadSide (ixfdCommonsockFree s k sock).net
        (ixfdCommonsockFree s k sock).file ∧
      SockFiles (ixfdCommonsockFree s k sock) := by
  unfold ixfdCommonsockFree
  rcases freeDefault_cases s sock with ⟨c, ctx, _, heq⟩ | ⟨_, heq⟩
  · have hst : Still s.net (s.net.emit [.free (.connCtx c)]) :=
      (Still.refl s.net).emit _ (by simp [Effect.closes])
    rw [heq]
    exact ⟨h.still hst, hsocks.mono rfl le_rfl⟩
  · rw [heq]
    exact ⟨h, hsocks.mono rfl le_rfl⟩

theorem readSide_connectCb
    (h : ReadSide s.net s.file) (hsocks : SockFiles s)
    {a : Nat} {args : IxfdConnectArgs} {sock : IxfdSockObj}
    (hk : s.socks args.sock = some sock) (failed mallocOk : Bool)
    (hopen : failed = false →
      ∃ o, sock.file = some o ∧ s.net.kernel sock.fd = some o) :
    ReadSide (ixfdCommonsockConnectCb s a args sock failed mallocOk).net
        (ixfdCommonsockConnectCb s a args sock failed mallocOk).file ∧
      SockFiles (ixfdCommonsockConnectCb s a args sock failed mallocOk) := by
  unfold ixfdCommonsockConnectCb
  cases failed with
  | true =>
      simp only [if_true]
      split <;> exact ⟨h, hsocks⟩
  | false =>
      obtain ⟨o, hfile, hname⟩ := hopen rfl
      have ho : o < s.net.nextConn := hsocks _ sock o hk hfile
      have hnew := newConn_connectCb s.net sock mallocOk
      have hgrows : Grows s.net (addConn s.net (activateCtx
          (ixfdCommonsockCreateCtx sock.callbacks sock.fd mallocOk))) :=
        ⟨fun _ _ hn => hn, fun _ _ hn => Or.inl hn, Nat.le_succ _⟩
      have hread := h.newConn hgrows hnew (Nat.lt_succ_of_lt ho) hname
      rw [← hfile] at hread
      have hset : SockFiles (((s.withNet (addConn s.net (activateCtx
          (ixfdCommonsockCreateCtx sock.callbacks sock.fd mallocOk)))).own
            s.net.nextConn args.sock sock.file).setSock args.sock
              { sock with
                type := .tcp
                defaultCtx := some s.net.nextConn }) := by
        apply SockFiles.setSock
        · exact hsocks.mono rfl (Nat.le_succ _)
        · intro p hp
          exact Nat.lt_succ_of_lt (hsocks _ sock p hk hp)
      simp only [Bool.false_eq_true, if_false]
      split
      · exact ⟨hread, hset.mono rfl le_rfl⟩
      · exact ⟨hread, hset.mono rfl le_rfl⟩

end Steps

theorem settled_step
    {s t : Layer} {l : Label} (h : Settled s) (hkeeps : KeepsStates s l)
    (ht : step s l = some t) :
    Settled t := by
  have hawake : Awake t.net := awake_of_step h.awake ht
  cases move_of_step ht with
  | conn hok hnet =>
      obtain ⟨hread, hnext⟩ := readSide_conn h.read hkeeps hok hnet
      exact ⟨hawake, hread, h.socks.mono rfl hnext.ge⟩
  | create =>
      have hset := h.socks.setSock s.nextSock
        ⟨⟨false, false, false, false⟩, 0, none, .unknown, none, none, none,
          false⟩ (by simp)
      exact ⟨hawake, h.read, hset.mono rfl le_rfl⟩
  | configure hk =>
      exact ⟨hawake, h.read, h.socks.keepsFile hk rfl⟩
  | @createnbind k sock fd bindOk hk htype hfd =>
      have hopened := h.socks.opened fd
      refine ⟨hawake, readSide_openFile h.read hfd, ?_⟩
      apply hopened.1.setSock
      cases bindOk with
      | true => exact hopened.2
      | false => exact hopened.2
  | @createnconnect k sock fd cbConn cbFailed connecting hk htype hfd =>
      have hopened := h.socks.opened fd
      have hset := hopened.1.setSock k
        { sock.opened s.net fd with
          eventConnect := some s.nextAttempt } hopened.2
      exact ⟨hawake, readSide_openFile h.read hfd, hset.mono rfl le_rfl⟩
  | listen hk htype haccept =>
      exact ⟨hawake, h.read, h.socks.keepsFile hk rfl⟩
  | unbind hk =>
      refine ⟨hawake, readSide_unbind h.read hkeeps hk, ?_⟩
      refine SockFiles.mono (h.socks.keepsFile hk ?_) rfl le_rfl
      rfl
  | disconnect hk =>
      obtain ⟨hsocks, hfile, hnext⟩ := disconnect_kept s _ _
      refine ⟨hawake, ?_, h.socks.mono hsocks hnext.ge⟩
      rw [hfile]
      exact readSide_disconnect h.read hkeeps hk
  | @freectx c ctx hc hfreed =>
      have hst : Still s.net (s.net.emit [.free (.connCtx c)]) :=
        (Still.refl s.net).emit _ (by simp [Effect.closes])
      exact ⟨hawake, h.read.still hst, h.socks.mono rfl le_rfl⟩
  | @free k sock hk =>
      obtain ⟨hread, hsocks⟩ := readSide_free h.read h.socks k sock
      exact ⟨hawake, hread, hsocks⟩
  | @accept k sock fd mallocOk net hk hidle hnet =>
      obtain ⟨_, hfree, rfl⟩ := accept_eq_some hnet
      obtain ⟨ctx, hnew⟩ := newConn_acceptCb sock.callbacks s.net fd mallocOk
      have hlt := Nat.lt_of_lt_of_eq (Nat.lt_succ_self _) hnew.nextConn.symm
      refine ⟨hawake, ?_, h.socks.mono rfl (Nat.le_of_lt hlt)⟩
      apply h.read.newConn (grows_acceptCb hfree) hnew hlt
      rw [kernel_acceptCb]
      exact Function.update_self ..
  | acceptFailed hk hidle => exact absurd rfl (hkeeps.accepts _ _)
  | @connectReady a args sock failed mallocOk ha hk hidle hactive =>
      have hread := readSide_connectCb h.read h.socks (a := a) hk failed
        mallocOk fun hf =>
          hkeeps.connects a mallocOk (by rw [hf]) args sock ha hk
      exact ⟨hawake, hread.1, hread.2⟩
  | connectReturns ha hreporting hstack =>
      exact ⟨hawake, h.read, h.socks.mono rfl le_rfl⟩

end Socket
end Iojxd
