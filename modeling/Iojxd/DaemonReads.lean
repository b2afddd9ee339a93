import Iojxd.DaemonModel
import Iojxd.TransitionRun

/-!
# Messages and reads

A client sends a message and waits.  The kernel may give its bytes in several
reads, and every read is a message of its own to the handler: nothing is kept
from one read to the next.  Compared are the run that delivers the pieces and
the handling of all bytes at once.

How a chunk ends depends on the strings loaded before it; `lua` says how.
-/

namespace Iojxd
namespace Daemon

open TransitionRun

/-- What the handler does with a chunk. -/
inductive Fate where
  | auth
  | exit
  | unknown
  | refused
  | loaded
deriving DecidableEq

def fate (session : Option SessionData) (chunk : List UInt8) : Fate :=
  match commandOf chunk with
  | some cmd =>
      if cmd = bytes "AUTH" then .auth
      else if cmd = bytes "EXIT" then .exit
      else .unknown
  | none => if isAuthed session then .loaded else .refused

/-- The strings that were loaded. -/
def loadedIn (log : List Event) : List LuaString :=
  log.filterMap fun
    | .act _ (.load data) => some data
    | _ => none

/-- Commands, executions, replies and errors. -/
def performedIn (log : List Event) : List Event :=
  log.filter fun
    | .act _ _ => true
    | .raised _ _ => true
    | _ => false

/-- A table that was not used before. -/
def freshEnv (d : State) : Nat :=
  d.envs.foldr max 0 + 1

/-- A connection whose bytes are read. -/
structure Reading (c : Nat) (conn : Conn) (peer : Nat) (d : State) : Prop where
  found : d.conns c = some conn
  peer : d.kernel conn.ctx.fd = some peer
  readable : readable d conn = true

section Delivery

variable (tostringNumber : ℚ → LuaString)
variable (lua : List LuaString → LuaString → ChunkEnd)

/-- The ending of a chunk in the present state of Lua. -/
def endingOf (d : State) (chunk : List UInt8) : ChunkEnd :=
  lua (loadedIn d.log) (cString chunk)

/-- The handler on a chunk. -/
def handle (d : State) (conn : Conn) (chunk : List UInt8) : Handled :=
  cbRead tostringNumber conn.data chunk (freshEnv d) (endingOf lua d chunk)

/-- All bytes of a chunk are read at once. -/
def receive
    (c : Nat) (conn : Conn) (peer : Nat) (d : State)
    (chunk : List UInt8) : State :=
  performAll c (d.emit [.received c peer chunk])
    (handle tostringNumber lua d conn chunk)

/-- The pieces are read one after another, as long as the connection is read. -/
def deliver (c : Nat) : State → List (List UInt8) → State
  | d, [] => d
  | d, piece :: pieces =>
      match step tostringNumber d
          (.chunk c piece (freshEnv d) (endingOf lua d piece)) with
      | none => d
      | some t => deliver c t pieces

/-- The exchange is over after the chunk: the connection was closed, or the
process was left by an error. -/
def Ends (session : Option SessionData) (ending : ChunkEnd)
    (chunk : List UInt8) : Prop :=
  match fate session chunk with
  | .auth => False
  | .loaded => ∃ v, ending = .raises v ∧ v.isStringOrNumber = false
  | _ => True

end Delivery

/-! ## The handler by fates -/

section Handling

variable (tostringNumber : ℚ → LuaString) (session : Option SessionData)
variable (chunk : List UInt8) (env : Nat) (ending : ChunkEnd)

theorem executeCmd_exit :
    executeCmd (bytes "EXIT") env =
      ⟨[.write (bytes "1"), .close, .closeServer], none⟩ := by
  have hne : bytes "EXIT" ≠ bytes "AUTH" := by decide
  simp [executeCmd, commands, hne]

/-- **The handler by fates.** -/
theorem cbRead_by_fate :
    match fate session chunk with
    | .auth =>
        cbRead tostringNumber session chunk env ending =
          ⟨[.write (bytes "1"), .setData ⟨true, env⟩], none⟩
    | .exit =>
        cbRead tostringNumber session chunk env ending =
          ⟨[.write (bytes "1"), .close, .closeServer], none⟩
    | .unknown =>
        cbRead tostringNumber session chunk env ending =
          ⟨[], some .callNil⟩
    | .refused =>
        cbRead tostringNumber session chunk env ending =
          ⟨[.write (bytes "0\nyou are not authed."), .delayedGc, .close],
            none⟩
    | .loaded =>
        ∃ context, session = some ⟨true, context⟩ ∧
          cbRead tostringNumber session chunk env ending =
            runChunk tostringNumber context (cString chunk) ending := by
  unfold fate
  cases hcmd : commandOf chunk with
  | some cmd =>
      rw [cbRead_command tostringNumber session env ending hcmd]
      by_cases hauth : cmd = bytes "AUTH"
      · simp [hauth, executeCmd, commands]
      · by_cases hexit : cmd = bytes "EXIT"
        · subst hexit
          simpa only [hauth, if_false, if_true] using executeCmd_exit env
        · simp [hauth, hexit, executeCmd, commands]
  | none =>
      cases hauthed : isAuthed session with
      | false =>
          exact cbRead_refused tostringNumber session env ending hauthed hcmd
      | true =>
          rcases session with _ | ⟨_ | _, context⟩
          · cases hauthed
          · cases hauthed
          · exact ⟨context, rfl,
              cbRead_chunk tostringNumber env ending context hcmd⟩

/-- A chunk that is loaded leaves its string first. -/
theorem eventsOf_runChunk
    (c context : Nat) (data : LuaString) :
    ∃ rest, eventsOf c (runChunk tostringNumber context data ending) =
      .act c (.load data) :: rest := by
  cases ending with
  | loadFails msg => exact ⟨_, rfl⟩
  | succeeds => exact ⟨_, rfl⟩
  | raises value =>
      simp only [runChunk]
      split
      · exact ⟨_, rfl⟩
      · exact ⟨_, rfl⟩

/-- Every chunk leaves something. -/
theorem eventsOf_cbRead_ne_nil (c : Nat) :
    eventsOf c (cbRead tostringNumber session chunk env ending) ≠ [] := by
  have h := cbRead_by_fate tostringNumber session chunk env ending
  cases hf : fate session chunk with
  | loaded =>
      rw [hf] at h
      obtain ⟨context, _, hrun⟩ := h
      obtain ⟨rest, hrest⟩ :=
        eventsOf_runChunk tostringNumber ending c context (cString chunk)
      simp [hrun, hrest]
  | _ =>
      rw [hf] at h
      simp [h, eventsOf]

/-- The fate of a chunk, read off its first two events. -/
def fateOf : List Event → Option Fate
  | .act _ (.write _) :: .act _ (.setData _) :: _ => some .auth
  | .act _ (.write _) :: .act _ .close :: _ => some .exit
  | .act _ (.write _) :: .act _ .delayedGc :: _ => some .refused
  | .raised _ _ :: _ => some .unknown
  | .act _ (.load _) :: _ => some .loaded
  | _ => none

theorem fateOf_eventsOf (c : Nat) (later : List Event) :
    fateOf (eventsOf c (cbRead tostringNumber session chunk env ending) ++
      later) = some (fate session chunk) := by
  have h := cbRead_by_fate tostringNumber session chunk env ending
  cases hf : fate session chunk with
  | loaded =>
      rw [hf] at h
      obtain ⟨context, _, hrun⟩ := h
      obtain ⟨rest, hrest⟩ :=
        eventsOf_runChunk tostringNumber ending c context (cString chunk)
      simp [hrun, hrest, fateOf]
  | _ =>
      rw [hf] at h
      simp [h, eventsOf, fateOf]

end Handling

/-! ## The connection after a chunk -/

section After

variable {tostringNumber : ℚ → LuaString}
variable {lua : List LuaString → LuaString → ChunkEnd}
variable {c peer : Nat} {conn : Conn} {d : State}

/-- A connection that is read stays so under actions that do not close it. -/
theorem reading_perform
    (h : Reading c conn peer d) {a : Action} (ha : a ≠ .close) :
    ∃ conn', Reading c conn' peer (perform c d a) ∧ conn'.ctx = conn.ctx := by
  have hr := h.readable
  rw [perform_of_conns h.found]
  cases a with
  | close => exact absurd rfl ha
  | setData session =>
      exact ⟨{ conn with data := some session },
        ⟨Function.update_self .., h.peer, hr⟩, rfl⟩
  | _ => exact ⟨conn, ⟨h.found, h.peer, hr⟩, rfl⟩

theorem reading_performAll
    {r : Handled} (h : Reading c conn peer d)
    (hacts : ∀ a ∈ r.actions, a ≠ .close) (herror : r.error = none) :
    ∃ conn', Reading c conn' peer (performAll c d r) ∧
      conn'.ctx = conn.ctx := by
  have hfold : ∀ (as : List Action) (d : State) conn,
      (∀ a ∈ as, a ≠ .close) → Reading c conn peer d →
      ∃ conn', Reading c conn' peer (as.foldl (perform c) d) ∧
        conn'.ctx = conn.ctx := by
    intro as
    induction as with
    | nil => exact fun d conn _ h => ⟨conn, h, rfl⟩
    | cons a as ih =>
        intro d conn has h
        obtain ⟨conn', h', hctx⟩ :=
          reading_perform h (has a List.mem_cons_self)
        obtain ⟨conn'', h'', hctx'⟩ := ih (perform c d a) conn'
          (fun b hb => has b (List.mem_cons_of_mem _ hb)) h'
        exact ⟨conn'', h'', hctx'.trans hctx⟩
  have hdone := hfold r.actions d conn hacts h
  simpa only [performAll, herror] using hdone

/-- The step of a read is the handler on its bytes. -/
theorem step_piece
    (h : Reading c conn peer d) {piece : List UInt8}
    (hne : piece ≠ []) (hsize : piece.length ≤ conn.ctx.sizeBufread) :
    step tostringNumber d
        (.chunk c piece (freshEnv d) (endingOf lua d piece)) =
      some (receive tostringNumber lua c conn peer d piece) := by
  have hfresh : freshEnv d ∉ d.envs := by
    intro hmem
    have hle : freshEnv d ≤ d.envs.foldr max 0 := by
      exact List.le_max_of_le hmem le_rfl
    unfold freshEnv at hle
    omega
  simp [step, h.found, h.peer, h.readable, hne, hsize, hfresh, receive, handle]

theorem performedIn_receive
    (h : Reading c conn peer d) (chunk : List UInt8) :
    performedIn (receive tostringNumber lua c conn peer d chunk).log =
      performedIn d.log ++
        eventsOf c (handle tostringNumber lua d conn chunk) := by
  have hself : performedIn
      (eventsOf c (handle tostringNumber lua d conn chunk)) =
        eventsOf c (handle tostringNumber lua d conn chunk) := by
    apply List.filter_eq_self.mpr
    intro x hx
    simp only [eventsOf, List.mem_append, List.mem_map] at hx
    rcases hx with ⟨a, _, rfl⟩ | hx
    · rfl
    · split at hx
      · simp at hx
      · simp only [List.mem_singleton] at hx
        subst hx
        rfl
  have hc : (d.emit [.received c peer chunk]).conns c = some conn := h.found
  rw [receive, log_performAll hc, performedIn, List.filter_append, ← performedIn,
    ← performedIn, hself]
  simp [performedIn]

/-- A chunk that does not end the exchange leaves the connection read. -/
theorem reading_receive
    (h : Reading c conn peer d) {chunk : List UInt8}
    (hgoes : ¬ Ends conn.data (endingOf lua d chunk) chunk) :
    ∃ conn',
      Reading c conn' peer (receive tostringNumber lua c conn peer d chunk) ∧
        conn'.ctx = conn.ctx := by
  have hemit : Reading c conn peer (d.emit [.received c peer chunk]) :=
    ⟨h.found, h.peer, h.readable⟩
  have hfate := cbRead_by_fate tostringNumber conn.data chunk (freshEnv d)
    (endingOf lua d chunk)
  unfold Ends at hgoes
  cases hf : fate conn.data chunk with
  | auth =>
      rw [hf] at hfate
      apply reading_performAll hemit
      · simp [handle, hfate]
      · simp [handle, hfate]
  | loaded =>
      rw [hf] at hfate hgoes
      obtain ⟨context, _, hrun⟩ := hfate
      apply reading_performAll hemit
      · rw [handle, hrun]
        cases endingOf lua d chunk with
        | loadFails msg => simp [runChunk]
        | succeeds => simp [runChunk]
        | raises value =>
            simp only [runChunk]
            split <;> simp
      · rw [handle, hrun]
        cases hend : endingOf lua d chunk with
        | loadFails msg => rfl
        | succeeds => rfl
        | raises value =>
            have hsome : value.isStringOrNumber = true := by
              rw [← Bool.not_eq_false]
              intro hnot
              exact hgoes ⟨value, hend, hnot⟩
            rw [← value.concatOperand_isSome tostringNumber,
              Option.isSome_iff_exists] at hsome
            obtain ⟨result, hresult⟩ := hsome
            simp [runChunk, hresult]
  | _ =>
      rw [hf] at hgoes
      exact absurd trivial hgoes

/-- A chunk that ends the exchange is the last one that is read. -/
theorem not_readable_receive
    (h : Reading c conn peer d) {chunk : List UInt8}
    (hends : Ends conn.data (endingOf lua d chunk) chunk) :
    ∀ conn',
      (receive tostringNumber lua c conn peer d chunk).conns c = some conn' →
      readable (receive tostringNumber lua c conn peer d chunk) conn' =
        false := by
  have hfate := cbRead_by_fate tostringNumber conn.data chunk (freshEnv d)
    (endingOf lua d chunk)
  unfold Ends at hends
  intro conn' hc'
  cases hf : fate conn.data chunk with
  | auth =>
      rw [hf] at hends
      exact hends.elim
  | exit =>
      rw [hf] at hfate
      simp only [receive, handle, hfate, performAll, perform, applyAction,
        State.emit, List.foldl_cons, List.foldl_nil, h.found] at hc' ⊢
      simp at hc'
      subst hc'
      simp [readable, Sock.closeCtx, Sock.EvIo.stop]
  | refused =>
      rw [hf] at hfate
      simp only [receive, handle, hfate, performAll, perform, applyAction,
        State.emit, List.foldl_cons, List.foldl_nil, h.found] at hc' ⊢
      simp at hc'
      subst hc'
      simp [readable, Sock.closeCtx, Sock.EvIo.stop]
  | unknown =>
      rw [hf] at hfate
      simp [receive, handle, hfate, performAll, readable]
  | loaded =>
      rw [hf] at hfate hends
      obtain ⟨context, _, hrun⟩ := hfate
      obtain ⟨value, hend, hnot⟩ := hends
      rw [← value.concatOperand_isSome tostringNumber,
        Option.isSome_eq_false_iff, Option.isNone_iff_eq_none] at hnot
      rw [receive, handle, hrun, hend]
      simp [runChunk, hnot, performAll, readable]

end After

/-! ## Pieces -/

section Pieces

variable {tostringNumber : ℚ → LuaString}
variable {lua : List LuaString → LuaString → ChunkEnd}
variable {c peer : Nat} {conn : Conn} {d : State}

theorem deliver_cons
    (h : Reading c conn peer d) {piece : List UInt8}
    (hne : piece ≠ []) (hsize : piece.length ≤ conn.ctx.sizeBufread)
    (pieces : List (List UInt8)) :
    deliver tostringNumber lua c d (piece :: pieces) =
      deliver tostringNumber lua c
        (receive tostringNumber lua c conn peer d piece) pieces := by
  simp [deliver, step_piece h hne hsize]

/-- Bytes of a connection that is not read stay in the kernel. -/
theorem deliver_stuck
    (h : ∀ conn, d.conns c = some conn → readable d conn = false)
    (pieces : List (List UInt8)) :
    deliver tostringNumber lua c d pieces = d := by
  cases pieces with
  | nil => rfl
  | cons piece pieces =>
      have hstep : step tostringNumber d
          (.chunk c piece (freshEnv d) (endingOf lua d piece)) = none := by
        cases ht : step tostringNumber d
            (.chunk c piece (freshEnv d) (endingOf lua d piece)) with
        | none => rfl
        | some t =>
            obtain ⟨conn, _, hc, _, hr, _⟩ := chunk_eq_some ht
            rw [h conn hc] at hr
            cases hr
      simp [deliver, hstep]

variable (tostringNumber lua) in
/-- What is delivered adds to what was performed. -/
theorem deliver_extends (c : Nat) (d : State) (pieces : List (List UInt8)) :
    performedIn d.log <+:
      performedIn (deliver tostringNumber lua c d pieces).log := by
  induction pieces generalizing d with
  | nil => exact List.prefix_refl _
  | cons piece pieces ih =>
      simp only [deliver]
      split
      · exact List.prefix_refl _
      · rename_i t ht
        obtain ⟨conn, peer, hc, hpeer, hr, _, _, _, rfl⟩ := chunk_eq_some ht
        refine List.IsPrefix.trans ?_ (ih _)
        have hlog : performedIn
              (receive tostringNumber lua c conn peer d piece).log =
            performedIn d.log ++
              eventsOf c (handle tostringNumber lua d conn piece) :=
          performedIn_receive ⟨hc, hpeer, hr⟩ piece
        exact ⟨_, hlog.symm⟩

variable (tostringNumber lua) in
/-- A piece of a connection that is read adds something. -/
theorem deliver_adds
    (h : Reading c conn peer d) {piece : List UInt8}
    (hne : piece ≠ []) (hsize : piece.length ≤ conn.ctx.sizeBufread)
    (pieces : List (List UInt8)) :
    (performedIn d.log).length <
      (performedIn (deliver tostringNumber lua c d
        (piece :: pieces)).log).length := by
  rw [deliver_cons h hne hsize]
  have hle := (deliver_extends tostringNumber lua c
    (receive tostringNumber lua c conn peer d piece) pieces).length_le
  rw [performedIn_receive h, List.length_append] at hle
  have hsome : eventsOf c (handle tostringNumber lua d conn piece) ≠ [] :=
    eventsOf_cbRead_ne_nil tostringNumber conn.data piece _ _ c
  have hpos := List.length_pos_of_ne_nil hsome
  omega

/-- The first piece, taken alone, does what the message does and ends the
exchange. -/
def FirstSuffices
    (lua : List LuaString → LuaString → ChunkEnd) (d : State) (conn : Conn)
    (piece message : List UInt8) : Prop :=
  fate conn.data piece = fate conn.data message ∧
    (fate conn.data message = .loaded → cString piece = cString message) ∧
    Ends conn.data (endingOf lua d message) message

theorem handle_eq
    {piece message : List UInt8}
    (hfate : fate conn.data piece = fate conn.data message)
    (hloaded : fate conn.data message = .loaded →
      cString piece = cString message) :
    handle tostringNumber lua d conn piece =
      handle tostringNumber lua d conn message := by
  have hpiece := cbRead_by_fate tostringNumber conn.data piece (freshEnv d)
    (endingOf lua d piece)
  have hmessage := cbRead_by_fate tostringNumber conn.data message (freshEnv d)
    (endingOf lua d message)
  rw [hfate] at hpiece
  unfold handle
  cases hf : fate conn.data message with
  | loaded =>
      have hstring := hloaded hf
      rw [hf] at hpiece hmessage
      obtain ⟨context, hsession, hrun⟩ := hpiece
      obtain ⟨context', hsession', hrun'⟩ := hmessage
      rw [hsession, Option.some.injEq, SessionData.mk.injEq] at hsession'
      rw [hrun, hrun', hsession'.2, endingOf, endingOf, hstring]
  | _ =>
      rw [hf] at hpiece hmessage
      exact hpiece.trans hmessage.symm

theorem ends_congr
    {piece message : List UInt8}
    (hfate : fate conn.data piece = fate conn.data message)
    (hloaded : fate conn.data message = .loaded →
      cString piece = cString message) :
    Ends conn.data (endingOf lua d piece) piece ↔
      Ends conn.data (endingOf lua d message) message := by
  unfold Ends
  rw [hfate]
  cases hf : fate conn.data message with
  | loaded => rw [endingOf, endingOf, hloaded hf]
  | _ => exact Iff.rfl

/-- A piece that begins with the events of the message has its fate. -/
theorem fate_eq
    {piece message : List UInt8} {later : List Event}
    (h : eventsOf c (handle tostringNumber lua d conn piece) ++ later =
      eventsOf c (handle tostringNumber lua d conn message)) :
    fate conn.data piece = fate conn.data message := by
  have hleft := fateOf_eventsOf tostringNumber conn.data piece
    (freshEnv d) (endingOf lua d piece) c later
  have hright := fateOf_eventsOf tostringNumber conn.data message
    (freshEnv d) (endingOf lua d message) c []
  rw [List.append_nil] at hright
  have hsame := congrArg fateOf h
  exact Option.some.inj (hleft.symm.trans (hsame.trans hright))

/-- If both are loaded, they are loaded as the same string. -/
theorem loaded_eq
    {piece message : List UInt8} {later : List Event}
    (hfate : fate conn.data piece = .loaded)
    (hfate' : fate conn.data message = .loaded)
    (h : eventsOf c (handle tostringNumber lua d conn piece) ++ later =
      eventsOf c (handle tostringNumber lua d conn message)) :
    cString piece = cString message := by
  have hpiece := cbRead_by_fate tostringNumber conn.data piece (freshEnv d)
    (endingOf lua d piece)
  have hmessage := cbRead_by_fate tostringNumber conn.data message (freshEnv d)
    (endingOf lua d message)
  rw [hfate] at hpiece
  rw [hfate'] at hmessage
  obtain ⟨context, _, hrun⟩ := hpiece
  obtain ⟨context', _, hrun'⟩ := hmessage
  obtain ⟨rest, hrest⟩ := eventsOf_runChunk tostringNumber
    (endingOf lua d piece) c context (cString piece)
  obtain ⟨rest', hrest'⟩ := eventsOf_runChunk tostringNumber
    (endingOf lua d message) c context' (cString message)
  rw [handle, handle, hrun, hrun', hrest, hrest', List.cons_append,
    List.cons.injEq] at h
  simpa using h.1

/-- **Packet boundaries do not matter** exactly for a message that is read at
once, and for one whose first piece suffices. -/
theorem boundaries_iff
    (tostringNumber : ℚ → LuaString)
    (lua : List LuaString → LuaString → ChunkEnd)
    (h : Reading c conn peer d)
    (piece : List UInt8) (pieces : List (List UInt8))
    (hpieces : ∀ p ∈ piece :: pieces,
      p ≠ [] ∧ p.length ≤ conn.ctx.sizeBufread) :
    performedIn (deliver tostringNumber lua c d (piece :: pieces)).log =
        performedIn (receive tostringNumber lua c conn peer d
          (piece :: pieces).flatten).log ↔
      pieces = [] ∨
        FirstSuffices lua d conn piece (piece :: pieces).flatten := by
  obtain ⟨hne, hsize⟩ := hpieces piece List.mem_cons_self
  rw [deliver_cons h hne hsize]
  cases pieces with
  | nil => simp [deliver]
  | cons next pieces =>
      generalize (piece :: next :: pieces).flatten = message
      rw [performedIn_receive h message]
      constructor
      · intro heq
        right
        obtain ⟨later, hlater⟩ := deliver_extends
          tostringNumber lua c
          (receive tostringNumber lua c conn peer d piece) (next :: pieces)
        rw [performedIn_receive h, List.append_assoc] at hlater
        rw [← hlater, List.append_cancel_left_eq] at heq
        have hfate := fate_eq heq
        have hloaded : fate conn.data message = .loaded →
            cString piece = cString message := fun hf =>
          loaded_eq (hfate.trans hf) hf heq
        refine ⟨hfate, hloaded, ?_⟩
        by_contra hgoes
        have hsame := congrArg List.length heq
        rw [handle_eq hfate hloaded, List.length_append] at hsame
        -- the connection is still read, so the next piece adds something
        rw [← ends_congr hfate hloaded] at hgoes
        obtain ⟨conn', hreading, hctx⟩ : ∃ conn', Reading c conn' peer
              (receive tostringNumber lua c conn peer d piece) ∧
            conn'.ctx = conn.ctx :=
          reading_receive h hgoes
        obtain ⟨hne', hsize'⟩ := hpieces next (by simp)
        have hadds := deliver_adds tostringNumber lua hreading hne'
          (hctx ▸ hsize') pieces
        rw [← hlater, performedIn_receive h] at hadds
        simp only [List.length_append] at hadds
        omega
      · rintro (hnil | ⟨hfate, hloaded, hends⟩)
        · cases hnil
        · rw [← ends_congr hfate hloaded] at hends
          rw [deliver_stuck (not_readable_receive h hends),
            performedIn_receive h, handle_eq hfate hloaded]

/-- AUTH in two reads: the first one is an unknown command, and the process
ends. -/
theorem auth_in_two_reads :
    ∃ d, run (step fun _ => bytes "0") .init [.accept 0 7 true] = some d ∧
      (bytes "$A" ++ bytes "UTH").length ≤ 4096 ∧
      performedIn (deliver (fun _ => bytes "0") (fun _ _ => .succeeds) 0 d
          [bytes "$A", bytes "UTH"]).log =
        [.raised 0 .callNil] ∧
      performedIn (deliver (fun _ => bytes "0") (fun _ _ => .succeeds) 0 d
          [bytes "$A" ++ bytes "UTH"]).log =
        [.act 0 (.write (bytes "1")), .act 0 (.setData ⟨true, 1⟩)] := by
  exact ⟨_, rfl, by decide, by decide, by decide⟩

/-- A chunk of an unauthenticated connection is refused after its first read,
as it is in one read. -/
theorem boundaries_iff_refused :
    ∃ d conn,
      run (step fun _ => bytes "0") .init [.accept 0 7 true] = some d ∧
      Reading 0 conn 0 d ∧
      (performedIn (deliver (fun _ => bytes "0") (fun _ _ => .succeeds) 0 d
          [bytes "exe", bytes "cute()"]).log =
        performedIn (receive (fun _ => bytes "0") (fun _ _ => .succeeds) 0 conn
          0 d [bytes "exe", bytes "cute()"].flatten).log ↔
        [bytes "cute()"] = [] ∨
          FirstSuffices (fun _ _ => .succeeds) d conn (bytes "exe")
            [bytes "exe", bytes "cute()"].flatten) := by
  have hreading : ∃ d conn,
      run (step fun _ => bytes "0") .init [.accept 0 7 true] = some d ∧
        Reading 0 conn 0 d ∧ conn.ctx.sizeBufread = 4096 :=
    ⟨_, _, rfl, ⟨rfl, rfl, rfl⟩, rfl⟩
  obtain ⟨d, conn, hrun, h, hsize⟩ := hreading
  refine ⟨d, conn, hrun, h, boundaries_iff _ _ h _ _ ?_⟩
  rw [hsize]
  decide

end Pieces

end Daemon
end Iojxd
