import Iojxd.Caster
import Iojxd.InputLoop
import Iojxd.WaitStatus

/-!
# The tracer of one submission

`evaluate_tracer` of `oj/iojxd.lua` runs in the process that forked the
program.  Each iteration of its loop waits for the tracee, decodes the status
word and either answers a stop with a ptrace request or writes the result and
leaves the loop.

The loop is run on the list of results of `wait4`.  What the tracer finds
around it is a `TracerEnv`: its arguments, whether `args.outfile` can be
opened, how the forked `diff` ends and the system call names of the host
(`ixut_syscall_name` switches over the constants of `<sys/syscall.h>`).
Console output is left out.  A Lua error and a callback that never runs both
end the loop here: no further status is read.
-/

namespace Iojxd
namespace Tracer

open WaitStatus InputLoop

/-- `lounix.SIGKILL`, `lounix.SIGSEGV` and `lounix.SIGPROF`. -/
def SIGKILL : Nat := 9
def SIGSEGV : Nat := 11
def SIGPROF : Nat := 27

/-- The ptrace requests of `lolinuxptrace.lua` that the tracer issues. -/
inductive PtraceRequest where
  | PTRACE_KILL
  | PTRACE_GETREGS
  | PTRACE_SYSCALL
deriving DecidableEq

/-- The fields of `struct rusage` that the tracer reads. -/
structure Rusage where
  utimeSec : Int
  utimeUsec : Int
  stimeSec : Int
  stimeUsec : Int
  idrss : Int
deriving DecidableEq

/-- A change of the tracee reported by `wait4`, with the value of `orig_rax`
that `PTRACE_GETREGS` reads if the tracee is stopped. -/
structure Report where
  status : Word
  rusage : Rusage
  origRax : BitVec 64
deriving DecidableEq

/-- Result of one `wait4`: it returns -1, or the pid with a report. -/
inductive Wait4 where
  | failed
  | reported (r : Report)
deriving DecidableEq

/-- `lutil.wait4`: a failed call leaves the zero-initialised buffers. -/
def lutilWait4 (pid : Int) : Wait4 → Int × Word × Rusage
  | .failed => (-1, 0, ⟨0, 0, 0, 0, 0⟩)
  | .reported r => (pid, r.status, r.rusage)

/-- `lutil.rusage_time`, without rounding. -/
def rusageTime (rusage : Rusage) : ℚ :=
  let sec := rusage.utimeSec + rusage.stimeSec
  let usec := rusage.utimeUsec + rusage.stimeUsec
  sec + usec / 1000000

/-- `lutil.inside` with its default comparison. -/
def lutilInside : List LuaString → LuaString → Bool
  | [], _ => false
  | v :: array, element =>
      if v = element then true else lutilInside array element

/-- One call of `write_status`. -/
structure StatusRecord where
  status : Caster.Status
  time : ℚ
  mem : Int
  log : Option LuaString
deriving DecidableEq

/-- How the forked `diff` ended, as its callback finds it: the raw status of
the child and the size of `paths.diff` when that file exists. -/
structure DiffEnd where
  status : Word
  size : Option Nat
deriving DecidableEq

/-- The fields of `args` that the tracer reads. -/
structure TracerArgs where
  syscallWhitelist : List LuaString
  result : LuaString
  outfile : LuaString

/-- The paths of a session. -/
structure Paths where
  cclog : LuaString
  exec : LuaString
  output : LuaString
  diff : LuaString

/-- Everything one run of `evaluate_tracer` depends on besides `wait4`.
`diff` is `none` when the callback of the forked `diff` never runs. -/
structure TracerEnv where
  args : TracerArgs
  pid : Int
  paths : Paths
  syscallName : BitVec 64 → LuaString
  outfileOpens : Bool
  diff : Option DiffEnd

/-- What the tracer does, in order. -/
inductive TracerEvent where
  | waited (w : Wait4)
  | ptrace (request : PtraceRequest) (pid : Int)
  | forked (program : LuaString) (args : List LuaString)
  | writeStatus (r : StatusRecord)
  | raised
deriving DecidableEq

/-- Loop state: `inited`, and `status.syscall_name` once `status.name` is
'overflow'. -/
structure TracerState where
  inited : Bool
  status : Option LuaString
deriving DecidableEq

def TracerState.start : TracerState :=
  { inited := false, status := none }

section Body

variable (env : TracerEnv)

/-- `write_status`: after a failed `io.open` the first `out:write` raises. -/
def writeStatus (r : StatusRecord) : List TracerEvent :=
  if env.outfileOpens then [.writeStatus r]
  else [.writeStatus r, .raised]

/-- The callback given to `laoj.fork`; its argument `status` is not used. -/
def diffCallback (time : ℚ) (mem : Int) (d : DiffEnd) : List TracerEvent :=
  match d.size with
  | none => [.raised]
  | some size =>
      if size = 0 then writeStatus env ⟨.AC, time, mem, none⟩
      else writeStatus env ⟨.WA, time, mem, none⟩

/-- The branch of an exited program: fork `diff` and run its callback. -/
def exitedBranch (time : ℚ) (mem : Int) : List TracerEvent :=
  .forked (bytes "diff") [env.paths.output, env.args.result] ::
    match env.diff with
    | none => []
    | some d => diffCallback env time mem d

/-- The message of a result that names a forbidden system call. -/
def invalidCallLog (name : LuaString) : LuaString :=
  bytes "Detected invalid system call '" ++ name ++ bytes "'!"

/-- The branch of a program terminated by a signal. -/
def signaledBranch (status : Option LuaString)
    (termsig : Nat) (time : ℚ) (mem : Int) : List TracerEvent :=
  if termsig = SIGSEGV then writeStatus env ⟨.RE, time, mem, none⟩
  else
    (if termsig = SIGPROF then writeStatus env ⟨.TLE, time, mem, none⟩
      else []) ++
    (if termsig = SIGKILL then
      match status with
      | some name => writeStatus env ⟨.RE, time, mem, some (invalidCallLog name)⟩
      | none => writeStatus env ⟨.MLE, time, mem, none⟩
    else [])

/-- The branch of a stop other than SIGPROF: the first one is resumed, every
later one is resumed or answered with `PTRACE_KILL`. -/
def stoppedBranch (s : TracerState) (syscallName : LuaString) :
    List TracerEvent × TracerState :=
  if s.inited = false then
    ([.ptrace .PTRACE_GETREGS env.pid, .ptrace .PTRACE_SYSCALL env.pid],
      { s with inited := true })
  else if lutilInside env.args.syscallWhitelist syscallName = false then
    ([.ptrace .PTRACE_GETREGS env.pid, .ptrace .PTRACE_KILL env.pid],
      { s with status := some syscallName })
  else
    ([.ptrace .PTRACE_GETREGS env.pid, .ptrace .PTRACE_SYSCALL env.pid], s)

/-- The name read at a stop. -/
def stopName : Wait4 → LuaString
  | .failed => env.syscallName 0
  | .reported r => env.syscallName r.origRax

/-- One iteration of the loop of `evaluate_tracer`. -/
def evaluateTracerBody (s : TracerState) (w : Wait4) :
    List TracerEvent × Option TracerState :=
  let (_ret, statusFinal, rusage) := lutilWait4 env.pid w
  let time := rusageTime rusage * 1000
  let mem := rusage.idrss
  if wifexited statusFinal then
    (.waited w :: exitedBranch env time mem, none)
  else if wifsignaled statusFinal then
    (.waited w ::
      signaledBranch env s.status (wtermsig statusFinal) time mem, none)
  else if wifstopped statusFinal then
    if wstopsig statusFinal = SIGPROF then
      (.waited w :: writeStatus env ⟨.TLE, time, mem, none⟩, none)
    else
      let (events, t) := stoppedBranch env s (stopName env w)
      (.waited w :: events, some t)
  else
    ([.waited w], some s)

/-- `evaluate_tracer` on the results that `wait4` will give. -/
def evaluateTracer (ws : List Wait4) :
    LoopRun TracerState Wait4 TracerEvent :=
  loop (evaluateTracerBody env) TracerState.start ws

end Body

end Tracer
end Iojxd
