import Iojxd.CommandHandler
import Iojxd.SockModel

/-!
# The daemon and its connections

The server socket of `oj/iojxd.lua` over any number of connections: accepts,
chunks delivered to the `on_read` handler and ends of file.  Each accepted
connection gets a context of `sock.cxx` and a wrapper `ixlbx_socket_context`
whose field `data` holds the session.  `kernel` names the connection behind each
open descriptor number; a number is free again after it was closed.

A label says which context it is about.  A chunk carries the identity of a table
not used before, for AUTH, and how the chunk ends if it is loaded.  A Lua error
that leaves the handler ends the process.
-/

namespace Iojxd
namespace Daemon

open Sock (IxfdConnCtx IxfdSock closeCtx activateCtx ixfdCommonsockCreateCtx)

/-- A context, and the field `data` of its wrapper. -/
structure Conn where
  ctx : IxfdConnCtx
  data : Option SessionData

inductive Event where
  | accepted (c : Nat) (fd : Int)
  | received (c peer : Nat) (chunk : List UInt8)
  | act (c : Nat) (action : Action)
  | raised (c : Nat) (error : LuaError)
deriving DecidableEq

/-- The context that an event is about. -/
def Event.conn : Event → Nat
  | .accepted c _ => c
  | .received c _ _ => c
  | .act c _ => c
  | .raised c _ => c

structure State where
  conns : Nat → Option Conn
  kernel : Int → Option Nat
  /-- environment tables made by AUTH -/
  envs : List Nat
  listening : Bool
  alive : Bool
  log : List Event

namespace State

def init : State where
  conns := fun _ => none
  kernel := fun _ => none
  envs := []
  listening := true
  alive := true
  log := []

@[simps] def setConn (d : State) (c : Nat) (conn : Conn) : State :=
  { d with conns := Function.update d.conns c (some conn) }

@[simps] def emit (d : State) (es : List Event) : State :=
  { d with log := d.log ++ es }

end State

/-- The callbacks that `ixlbx_tcp_base` sets. -/
def tcpBaseSock : IxfdSock where
  cbRead := true
  cbAccept := true
  cbClose := true
  passiveRead := false

inductive Label where
  | accept (c : Nat) (fd : Int) (mallocOk : Bool)
  | chunk (c : Nat) (data : List UInt8) (env : Nat) (ending : ChunkEnd)
  | eof (c : Nat)

def Label.conn : Label → Nat
  | .accept c _ _ => c
  | .chunk c _ _ _ => c
  | .eof c => c

/-- What an action does to the daemon besides being logged. -/
def applyAction (d : State) (c : Nat) (conn : Conn) : Action → State
  | .setData session =>
      { d.setConn c { conn with data := some session } with
        envs := session.context :: d.envs }
  | .close =>
      { d.setConn c { conn with ctx := closeCtx conn.ctx } with
        kernel := Function.update d.kernel conn.ctx.fd none }
  | .closeServer => { d with listening := false }
  | _ => d

/-- One action of the handler of `c`. -/
def perform (c : Nat) (d : State) (action : Action) : State :=
  match d.conns c with
  | none => d
  | some conn => (applyAction d c conn action).emit [.act c action]

/-- The actions of the handler of `c`, then its error if it has one. -/
def performAll (c : Nat) (d : State) (r : Handled) : State :=
  let d := r.actions.foldl (perform c) d
  match r.error with
  | none => d
  | some error => { d.emit [.raised c error] with alive := false }

/-- The read watcher of the context runs: it is started, its number is open and
the context has a buffer. -/
def readable (d : State) (conn : Conn) : Bool :=
  d.alive && conn.ctx.eventRead.active && conn.ctx.bufRead.isSome

/-- `ixfd_commonsock_accept_cb` with the callback of `ixlbx_tcp_base`, which
makes a wrapper without data. -/
def accept (d : State) (c : Nat) (fd : Int) (mallocOk : Bool) : State :=
  { (d.setConn c
      { ctx := activateCtx (ixfdCommonsockCreateCtx tcpBaseSock fd mallocOk)
        data := none }).emit [.accepted c fd] with
    kernel := Function.update d.kernel fd (some c) }

/-- The step function; `none` where the label is not enabled. -/
def step (tostringNumber : ℚ → LuaString) (d : State) :
    Label → Option State
  | .accept c fd mallocOk =>
      if (d.conns c).isNone && d.alive && d.listening &&
          (d.kernel fd).isNone && decide (0 ≤ fd) then
        some (accept d c fd mallocOk)
      else none
  | .chunk c data env ending =>
      match d.conns c with
      | none => none
      | some conn =>
          match d.kernel conn.ctx.fd with
          | none => none
          | some peer =>
              if readable d conn && !data.isEmpty &&
                  decide (data.length ≤ conn.ctx.sizeBufread) &&
                  !d.envs.contains env then
                some (performAll c (d.emit [.received c peer data])
                  (cbRead tostringNumber conn.data data env ending))
              else none
  | .eof c =>
      match d.conns c with
      | none => none
      | some conn =>
          if readable d conn && (d.kernel conn.ctx.fd).isSome then
            some (performAll c d ⟨[.delayedGc, .close], none⟩)
          else none

/-! ## Actions -/

section Actions

variable {c : Nat} {d : State}

theorem perform_of_conns
    {conn : Conn} (h : d.conns c = some conn) (a : Action) :
    perform c d a = (applyAction d c conn a).emit [.act c a] := by
  simp [perform, h]

/-- What an action does to the context, the descriptor table and the log. -/
structure Performed
    (c : Nat) (conn : Conn) (a : Action) (d t : State) (conn' : Conn) :
    Prop where
  conns : t.conns = Function.update d.conns c (some conn')
  fd : conn'.ctx.fd = conn.ctx.fd
  data : conn'.data =
    match a with
    | .setData session => some session
    | _ => conn.data
  log : t.log = d.log ++ [.act c a]
  envs : ∀ e ∈ d.envs, e ∈ t.envs
  stored : ∀ session, a = .setData session → session.context ∈ t.envs
  kernel :
    (t.kernel = d.kernel ∧ conn'.ctx.eventRead = conn.ctx.eventRead) ∨
      (t.kernel = Function.update d.kernel conn.ctx.fd none ∧
        conn'.ctx.eventRead.active = false)

theorem performed
    {conn : Conn} (h : d.conns c = some conn) (a : Action) :
    ∃ conn', Performed c conn a d (perform c d a) conn' := by
  rw [perform_of_conns h]
  have hself : d.conns = Function.update d.conns c (some conn) := by
    rw [← h, Function.update_eq_self]
  cases a with
  | setData session =>
      exact ⟨{ conn with data := some session },
        { conns := rfl
          fd := rfl
          data := rfl
          log := rfl
          envs := fun _ he => List.mem_cons_of_mem _ he
          stored := by
            rintro _ ⟨⟩
            exact List.mem_cons_self
          kernel := Or.inl ⟨rfl, rfl⟩ }⟩
  | close =>
      exact ⟨{ conn with ctx := closeCtx conn.ctx },
        { conns := rfl
          fd := rfl
          data := rfl
          log := rfl
          envs := fun _ he => he
          stored := by rintro _ ⟨⟩
          kernel := Or.inr ⟨rfl, rfl⟩ }⟩
  | _ =>
      exact ⟨conn,
        { conns := hself
          fd := rfl
          data := rfl
          log := rfl
          envs := fun _ he => he
          stored := by rintro _ ⟨⟩
          kernel := Or.inl ⟨rfl, rfl⟩ }⟩

/-- **Action rule**: what every action keeps, the handler keeps. -/
theorem performAll_invariant
    {I : State → Prop} {r : Handled}
    (hact : ∀ d, I d → ∀ a ∈ r.actions, I (perform c d a))
    (hraise : ∀ d error, I d →
      I { d.emit [.raised c error] with alive := false })
    (hd : I d) :
    I (performAll c d r) := by
  have hfold : ∀ (as : List Action) d, I d →
      (∀ d, I d → ∀ a ∈ as, I (perform c d a)) →
      I (as.foldl (perform c) d) := by
    intro as
    induction as with
    | nil => exact fun d hd _ => hd
    | cons a as ih =>
        intro d hd has
        rw [List.foldl_cons]
        apply ih
        · exact has d hd a List.mem_cons_self
        · exact fun d hd b hb => has d hd b (List.mem_cons_of_mem _ hb)
  have hdone := hfold r.actions d hd hact
  unfold performAll
  cases r.error with
  | none => exact hdone
  | some error => exact hraise _ error hdone

/-- Action rule for two systems side by side. -/
theorem performAll_rel
    {R : State → State → Prop}
    (hact : ∀ d d' a, R d d' → R (perform c d a) (perform c d' a))
    (hraise : ∀ d d' error, R d d' →
      R { d.emit [.raised c error] with alive := false }
        { d'.emit [.raised c error] with alive := false })
    {d d' : State} (hd : R d d') (r : Handled) :
    R (performAll c d r) (performAll c d' r) := by
  have hfold : ∀ (as : List Action) d d', R d d' →
      R (as.foldl (perform c) d) (as.foldl (perform c) d') := by
    intro as
    induction as with
    | nil => exact fun _ _ hd => hd
    | cons a as ih =>
        intro d d' hd
        exact ih _ _ (hact d d' a hd)
  have hdone := hfold r.actions d d' hd
  unfold performAll
  cases r.error with
  | none => exact hdone
  | some error => exact hraise _ _ error hdone

/-- The events that the handler adds. -/
def eventsOf (c : Nat) (r : Handled) : List Event :=
  r.actions.map (Event.act c) ++
    match r.error with
    | none => []
    | some error => [.raised c error]

theorem log_performAll
    {conn : Conn} (h : d.conns c = some conn) (r : Handled) :
    (performAll c d r).log = d.log ++ eventsOf c r := by
  have hfold : ∀ (as : List Action) (d : State) conn,
      d.conns c = some conn →
      (as.foldl (perform c) d).log = d.log ++ as.map (Event.act c) := by
    intro as
    induction as with
    | nil => simp
    | cons a as ih =>
        intro d conn hc
        rcases performed hc a with ⟨conn', hp⟩
        have hc' : (perform c d a).conns c = some conn' := by
          rw [hp.conns, Function.update_self]
        rw [List.foldl_cons, ih _ conn' hc', hp.log]
        simp
  unfold performAll eventsOf
  cases r.error with
  | none => simpa using hfold r.actions d conn h
  | some error => simp [hfold r.actions d conn h]

end Actions

/-! ## Inversion -/

section Inversion

variable {tostringNumber : ℚ → LuaString} {d t : State}

theorem accept_eq_some
    {c : Nat} {fd : Int} {mallocOk : Bool}
    (h : step tostringNumber d (.accept c fd mallocOk) = some t) :
    d.conns c = none ∧ d.alive = true ∧ d.listening = true ∧
      d.kernel fd = none ∧ 0 ≤ fd ∧ t = accept d c fd mallocOk := by
  simp only [step] at h
  split at h
  · rename_i hok
    cases h
    simp only [Bool.and_eq_true, Option.isNone_iff_eq_none,
      decide_eq_true_eq] at hok
    rcases hok with ⟨⟨⟨⟨hc, ha⟩, hl⟩, hk⟩, hfd⟩
    exact ⟨hc, ha, hl, hk, hfd, rfl⟩
  · cases h

theorem chunk_eq_some
    {c : Nat} {data : List UInt8} {env : Nat} {ending : ChunkEnd}
    (h : step tostringNumber d (.chunk c data env ending) = some t) :
    ∃ conn peer,
      d.conns c = some conn ∧
      d.kernel conn.ctx.fd = some peer ∧
      readable d conn = true ∧
      data ≠ [] ∧
      data.length ≤ conn.ctx.sizeBufread ∧
      env ∉ d.envs ∧
      t = performAll c (d.emit [.received c peer data])
        (cbRead tostringNumber conn.data data env ending) := by
  simp only [step] at h
  split at h
  · cases h
  · rename_i conn hc
    split at h
    · cases h
    · rename_i peer hp
      split at h
      · rename_i hok
        cases h
        simp only [Bool.and_eq_true, Bool.not_eq_true', List.isEmpty_eq_false_iff,
          decide_eq_true_eq, List.contains_eq_mem, decide_eq_false_iff_not]
          at hok
        rcases hok with ⟨⟨⟨hr, hne⟩, hlen⟩, henv⟩
        exact ⟨conn, peer, hc, hp, hr, hne, hlen, henv, rfl⟩
      · cases h

theorem eof_eq_some
    {c : Nat} (h : step tostringNumber d (.eof c) = some t) :
    ∃ conn,
      d.conns c = some conn ∧
      readable d conn = true ∧
      (d.kernel conn.ctx.fd).isSome = true ∧
      t = performAll c d ⟨[.delayedGc, .close], none⟩ := by
  simp only [step] at h
  split at h
  · cases h
  · rename_i conn hc
    split at h
    · rename_i hok
      cases h
      rw [Bool.and_eq_true] at hok
      exact ⟨conn, hc, hok.1, hok.2, rfl⟩
    · cases h

theorem readable_iff (conn : Conn) :
    readable d conn = true ↔
      d.alive = true ∧ conn.ctx.eventRead.active = true ∧
        conn.ctx.bufRead.isSome = true := by
  simp [readable, and_assoc]

end Inversion

end Daemon
end Iojxd
