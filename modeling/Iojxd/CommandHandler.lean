import Iojxd.LuaValue

/-!
# The command handler of the daemon

The `on_read` handler of `oj/iojxd.lua` with `execute_cmd`.  It gets the data of
one `read(2)` as a Lua string that ends before the first NUL, and the number of
bytes that were read.  What the handler does is the list of its actions in
order, and the Lua error that leaves it, if any.  Loading and running a chunk is
an input: `ChunkEnd` says how it ends.  Console output is left out.

A table or userdata that reaches `..` has no `__concat` metamethod.
-/

namespace Iojxd
namespace Daemon

/-- `ctx.data` after AUTH; `context` is the identity of the environment table. -/
structure SessionData where
  authed : Bool
  context : Nat
deriving DecidableEq

/-- How loading and running a chunk ends. -/
inductive ChunkEnd where
  | loadFails (msg : LuaString)
  | succeeds
  | raises (value : LuaValue)
deriving DecidableEq

/-- What the handler does to its connection and its server. -/
inductive Action where
  | write (reply : LuaString)
  | setData (session : SessionData)
  | load (data : LuaString)
  | run (data : LuaString) (env : Nat)
  | close
  | closeServer
  | delayedGc
deriving DecidableEq

/-- Errors of the Lua operators that the handler uses. -/
inductive LuaError where
  | callNil
  | concat (operand : LuaValue)
deriving DecidableEq

structure Handled where
  actions : List Action
  error : Option LuaError
deriving DecidableEq

/-- The table `commands` of `execute_cmd`; `env` is the table that AUTH makes. -/
def commands (env : Nat) (cmd : LuaString) : Option (List Action) :=
  if cmd = bytes "AUTH" then
    some [.write (bytes "1"), .setData ⟨true, env⟩]
  else if cmd = bytes "EXIT" then
    some [.write (bytes "1"), .close, .closeServer]
  else none

/-- `execute_cmd`. -/
def executeCmd (cmd : LuaString) (env : Nat) : Handled :=
  match commands env cmd with
  | some actions => ⟨actions, none⟩
  | none => ⟨[], some .callNil⟩

/-- The first test of the handler. -/
def isCommand (data : LuaString) (len : Nat) : Bool :=
  decide (1 < len) && stringSub data 1 1 == bytes "$"

/-- `ctx.data ~= nil and ctx.data.authed == true`. -/
def isAuthed : Option SessionData → Bool
  | none => false
  | some session => session.authed

/-- The branch of the handler for a chunk of an authenticated connection. -/
def runChunk
    (tostringNumber : ℚ → LuaString) (context : Nat) (data : LuaString) :
    ChunkEnd → Handled
  | .loadFails msg =>
      ⟨[.load data, .write (bytes "0\n" ++ msg)], none⟩
  | .succeeds =>
      ⟨[.load data, .run data context, .write (bytes "1")], none⟩
  | .raises value =>
      match value.concatOperand tostringNumber with
      | some result =>
          ⟨[.load data, .run data context,
            .write (bytes "0\n" ++ result)], none⟩
      | none => ⟨[.load data, .run data context], some (.concat value)⟩

/-- The `on_read` handler. -/
def onRead
    (tostringNumber : ℚ → LuaString) (session : Option SessionData)
    (data : LuaString) (len env : Nat) (ending : ChunkEnd) : Handled :=
  if isCommand data len then executeCmd (stringSub data 2 len) env
  else
    match session with
    | some ⟨true, context⟩ => runChunk tostringNumber context data ending
    | _ =>
        ⟨[.write (bytes "0\nyou are not authed."), .delayedGc, .close], none⟩

/-- `cb_read` of `ixlbx_tcp_base`: the handler gets the buffer as a
`const char *` and the length. -/
def cbRead
    (tostringNumber : ℚ → LuaString) (session : Option SessionData)
    (chunk : List UInt8) (env : Nat) (ending : ChunkEnd) : Handled :=
  onRead tostringNumber session (cString chunk) chunk.length env ending

/-- The command that a received chunk is handled as. -/
def commandOf (chunk : List UInt8) : Option LuaString :=
  if isCommand (cString chunk) chunk.length then
    some (stringSub (cString chunk) 2 chunk.length)
  else none

/-- A command is what follows a dollar sign, up to the first NUL. -/
theorem commandOf_eq_some_iff (chunk : List UInt8) (cmd : LuaString) :
    commandOf chunk = some cmd ↔
      1 < chunk.length ∧ cString chunk = bytes "$" ++ cmd := by
  have hlen := length_cString_le chunk
  have htail := stringSub_tail hlen
  unfold commandOf isCommand
  rcases hs : cString chunk with _ | ⟨b, rest⟩
  · simp [stringSub, bytes]
  · rw [hs] at htail
    rw [stringSub_first, htail]
    by_cases hone : 1 < chunk.length
    · by_cases hb : b = 36
      · simp [hone, hb, bytes]
      · simp [hone, hb, bytes]
    · simp [hone]

section Branches

variable (tostringNumber : ℚ → LuaString) (session : Option SessionData)
variable {chunk : List UInt8} (env : Nat) (ending : ChunkEnd)

theorem cbRead_command
    {cmd : LuaString} (h : commandOf chunk = some cmd) :
    cbRead tostringNumber session chunk env ending = executeCmd cmd env := by
  unfold commandOf at h
  split at h
  · rename_i hc
    cases h
    simp only [cbRead, onRead, hc, if_true]
  · cases h

theorem cbRead_chunk
    (context : Nat) (h : commandOf chunk = none) :
    cbRead tostringNumber (some ⟨true, context⟩) chunk env ending =
      runChunk tostringNumber context (cString chunk) ending := by
  unfold commandOf at h
  split at h
  · cases h
  · rename_i hc
    simp only [cbRead, onRead, hc]
    rfl

theorem cbRead_refused
    (hs : isAuthed session = false) (h : commandOf chunk = none) :
    cbRead tostringNumber session chunk env ending =
      ⟨[.write (bytes "0\nyou are not authed."), .delayedGc, .close],
        none⟩ := by
  unfold commandOf at h
  split at h
  · cases h
  · rename_i hc
    simp only [cbRead, onRead, hc]
    rcases session with _ | ⟨_ | _, context⟩
    · rfl
    · rfl
    · cases hs

end Branches

/-- The reply strings among some actions. -/
def replies (actions : List Action) : List LuaString :=
  actions.filterMap fun
    | .write reply => some reply
    | _ => none

/-- A reply of the protocol. -/
def WellFormedReply (reply : LuaString) : Prop :=
  bytes "1" <+: reply ∨ bytes "0\n" <+: reply

/-- The handler returns and has written exactly one reply. -/
def AnswersOnce (r : Handled) : Prop :=
  r.error = none ∧ ∃ reply, replies r.actions = [reply] ∧ WellFormedReply reply

theorem answersOnce_executeCmd_iff (cmd : LuaString) (env : Nat) :
    AnswersOnce (executeCmd cmd env) ↔
      cmd = bytes "AUTH" ∨ cmd = bytes "EXIT" := by
  unfold executeCmd commands
  by_cases hauth : cmd = bytes "AUTH"
  · simp [hauth, AnswersOnce, replies, WellFormedReply]
  · by_cases hexit : cmd = bytes "EXIT"
    · have hne : bytes "EXIT" ≠ bytes "AUTH" := by decide
      simp [hexit, hne, AnswersOnce, replies, WellFormedReply]
    · simp [hauth, hexit, AnswersOnce]

theorem answersOnce_runChunk_iff
    (tostringNumber : ℚ → LuaString) (context : Nat) (data : LuaString)
    (ending : ChunkEnd) :
    AnswersOnce (runChunk tostringNumber context data ending) ↔
      ∀ value, ending = .raises value → value.isStringOrNumber = true := by
  cases ending with
  | loadFails msg => simp [runChunk, AnswersOnce, replies, WellFormedReply]
  | succeeds => simp [runChunk, AnswersOnce, replies, WellFormedReply]
  | raises value =>
      have hiff := value.concatOperand_isSome tostringNumber
      simp only [runChunk, ChunkEnd.raises.injEq, forall_eq']
      rw [← hiff]
      cases value.concatOperand tostringNumber with
      | none => simp [AnswersOnce]
      | some result => simp [AnswersOnce, replies, WellFormedReply]

theorem answersOnce_refusal :
    AnswersOnce
      ⟨[.write (bytes "0\nyou are not authed."), .delayedGc, .close],
        none⟩ := by
  refine ⟨rfl, bytes "0\nyou are not authed.", rfl, Or.inr ?_⟩
  decide

/-- A command is known, and the error value of an authenticated chunk is one
that `..` accepts. -/
def Answerable
    (session : Option SessionData) (chunk : List UInt8)
    (ending : ChunkEnd) : Prop :=
  match commandOf chunk with
  | some cmd => cmd = bytes "AUTH" ∨ cmd = bytes "EXIT"
  | none =>
      isAuthed session = true →
        ∀ value, ending = .raises value → value.isStringOrNumber = true

/-- **The handler survives** a chunk and answers it once exactly when the chunk
is answerable. -/
theorem handler_survives_iff
    (tostringNumber : ℚ → LuaString) (session : Option SessionData)
    (chunk : List UInt8) (env : Nat) (ending : ChunkEnd) :
    AnswersOnce (cbRead tostringNumber session chunk env ending) ↔
      Answerable session chunk ending := by
  unfold Answerable
  cases hcmd : commandOf chunk with
  | some cmd =>
      rw [cbRead_command tostringNumber session env ending hcmd]
      exact answersOnce_executeCmd_iff cmd env
  | none =>
      have hrefused : isAuthed session = false →
          AnswersOnce (cbRead tostringNumber session chunk env ending) := by
        intro hs
        rw [cbRead_refused tostringNumber session env ending hs hcmd]
        exact answersOnce_refusal
      rcases session with _ | ⟨_ | _, context⟩
      · exact iff_of_true (hrefused rfl) (by simp [isAuthed])
      · exact iff_of_true (hrefused rfl) (by simp [isAuthed])
      · rw [cbRead_chunk tostringNumber env ending context hcmd,
          answersOnce_runChunk_iff]
        simp [isAuthed]

/-- An unknown command from a connection that is not authenticated, and an
authenticated chunk that raises a table, leave the handler with an error. -/
theorem handler_raises :
    (cbRead (fun _ => bytes "0") none (bytes "$FOO") 0 .succeeds).error =
        some .callNil ∧
      ¬ AnswersOnce (cbRead (fun _ => bytes "0") none (bytes "$FOO") 0
        .succeeds) ∧
      (cbRead (fun _ => bytes "0") (some ⟨true, 1⟩) (bytes "f()") 0
        (.raises (.table 7))).error = some (.concat (.table 7)) ∧
      ¬ AnswersOnce (cbRead (fun _ => bytes "0") (some ⟨true, 1⟩)
        (bytes "f()") 0 (.raises (.table 7))) := by
  have hcmd : (cbRead (fun _ => bytes "0") none (bytes "$FOO") 0
      .succeeds).error = some .callNil := by decide
  have hchunk : (cbRead (fun _ => bytes "0") (some ⟨true, 1⟩) (bytes "f()") 0
      (.raises (.table 7))).error = some (.concat (.table 7)) := by decide
  refine ⟨hcmd, ?_, hchunk, ?_⟩
  · rintro ⟨hnone, _⟩
    rw [hcmd] at hnone
    cases hnone
  · rintro ⟨hnone, _⟩
    rw [hchunk] at hnone
    cases hnone

end Daemon
end Iojxd
