import Iojxd.JudgeCompile
import Iojxd.SharedStore
import Iojxd.TracerRuns

/-!
# Judging sessions

`judge` and `evaluate` of `oj/iojxd.lua` after the settings, over one file
system.  Each call of `judge` makes a session: the daemon forks the compiler and
watches it, its callback writes a compile error or forks the tracer, the tracer
forks the program, judges its system calls and in the end forks `diff`.  The
steps of any number of sessions interleave; the compiler, the program and `diff`
are other programs, so what they do to files comes with the label.

Files are named by C strings, and a path has no second name.  What may be opened
does not change.  A session keeps the arguments that `judge` was given: the
client leaves their table alone until the result is there.  Directories, the
time limit, console output and failing forks are left out.
-/

namespace Iojxd
namespace Sessions

open ChildTermination Tracer WaitStatus SharedStore
open JudgeCompile (CompilerChild compilerArgv ixlbExec)

/-- The content of each file that exists. -/
abbrev Files := LuaString → Option LuaString

/-- What the sessions find around them: which files the system lets them open,
the names of system calls, `tmp_path` of the configuration file and the printing
of numbers. -/
structure Host where
  readable : LuaString → Bool
  writable : LuaString → Bool
  syscallName : BitVec 64 → LuaString
  configured : Option LuaString
  tostringNumber : ℚ → LuaString

/-! ## Paths -/

/-- `lutil.add_slash`. -/
def addSlash (src : LuaString) : LuaString :=
  if stringSub src src.length src.length ≠ bytes "/" then src ++ bytes "/"
  else src

/-- `config.tmp_path` after `iojxd_init`. -/
def Host.tmpPath (h : Host) : LuaString :=
  addSlash (h.configured.getD (bytes "/tmp/iojxd/"))

/-- What `uuid()` returns: letters, digits and dashes. -/
structure Uuid where
  text : LuaString
  plain : ∀ b ∈ text, b ≠ 0 ∧ b ≠ 47

/-- `session_dir`. -/
def sessionDir (tmpPath : LuaString) (u : Uuid) : LuaString :=
  tmpPath ++ u.text ++ bytes "/"

/-- `paths`. -/
def sessionPaths (tmpPath : LuaString) (u : Uuid) : Paths where
  cclog := sessionDir tmpPath u ++ bytes "compiler.log"
  exec := sessionDir tmpPath u ++ bytes "a.out"
  output := sessionDir tmpPath u ++ bytes "tmp.out"
  diff := sessionDir tmpPath u ++ bytes "diff.diff"

/-! ## Sessions -/

/-- The arguments of `judge`; `tool` are the fields named by the tags of
`caster`. -/
structure Args where
  source : List LuaString
  language : Caster.Language
  data : LuaString
  result : LuaString
  outfile : LuaString
  syscallWhitelist : List LuaString
  tool : LuaString → LuaString

/-- How far a session has come. -/
inductive Phase where
  /-- the compiler has been forked -/
  | compiling
  /-- the compiler has ended -/
  | compiled (pid : Int) (e : ChildEnd)
  /-- the tracer has been forked -/
  | evaluating
  /-- the tracer waits for the program -/
  | judging (pid : Int) (s : TracerState)
  /-- the tracer has forked `diff`, which may have ended -/
  | comparing (time : ℚ) (mem : Int) (ended : Option Word)
  | done
deriving DecidableEq

/-- The process of the program. -/
inductive Tracee where
  | absent
  | forked
  | running
  | ended
deriving DecidableEq

inductive Event where
  /-- a process calls `execvp` -/
  | exec (argv : List (Option LuaString))
  /-- the daemon or the tracer does something -/
  | did (e : TracerEvent)
deriving DecidableEq

structure Session where
  uuid : Uuid
  args : Args
  phase : Phase
  tracee : Tracee
  trace : List Event

inductive Act where
  | judge (u : Uuid) (a : Args)
  | compilerRuns (pid : Int) (child : CompilerChild)
      (wrote : List (LuaString × Option LuaString))
  | compilerReaped
  | forksProgram (pid : Int)
  | programSetup
  | programWrites (path : LuaString) (content : Option LuaString)
  | waited (w : Wait4)
  | diffRuns (status : Word) (out : LuaString)
  | diffReaped

section Steps

variable (h : Host)

def Session.paths (x : Session) : Paths :=
  sessionPaths h.tmpPath x.uuid

/-- A file is opened for writing by `freopen` or `io.open`, and then holds the
given content. -/
def openWrite (m : Files) (path content : LuaString) : Files :=
  if h.writable (cString path) then
    Function.update m (cString path) (some content)
  else m

/-- `readall`; `none` where it raises. -/
def readall (m : Files) (path : LuaString) : Option LuaString :=
  if h.readable (cString path) then m (cString path) else none

/-- What `write_status` puts into the outfile. -/
def recordText (r : StatusRecord) : LuaString :=
  h.tostringNumber ((Caster.status r.status).getD 0) ++ bytes "\n" ++
    (h.tostringNumber r.time ++ bytes " " ++ h.tostringNumber r.mem ++
      bytes "\n") ++
    r.log.getD []

/-- What an event does to the files. -/
def storeEvent (outfile : LuaString) (m : Files) : TracerEvent → Files
  | .writeStatus r => openWrite h m outfile (recordText h r)
  | _ => m

/-- The environment of the tracer; `diff` has not run yet. -/
def tracerEnv (x : Session) (pid : Int) : TracerEnv where
  args :=
    { syscallWhitelist := x.args.syscallWhitelist
      result := x.args.result
      outfile := x.args.outfile }
  pid := pid
  paths := x.paths h
  syscallName := h.syscallName
  outfileOpens := h.writable (cString x.args.outfile)
  diff := none

/-- Some events happen and the session goes on in a phase. -/
def Session.after (x : Session) (es : List TracerEvent) (phase : Phase) :
    Session :=
  { x with
    phase := phase
    trace := x.trace ++ es.map .did }

/-- The arguments of `execvp` for the program, as `evaluate` chooses them. -/
def programArgv (x : Session) : List (Option LuaString) :=
  let runtime := x.args.tool (Caster.runtimeTag x.args.language)
  if runtime.length = 0 then
    ixlbExec h.tostringNumber [.string (x.paths h).exec]
  else
    let execpath : LuaValue :=
      if Caster.needscompile x.args.language then .string (x.paths h).exec
      else (x.args.source.head?.map LuaValue.string).getD .nil
    ixlbExec h.tostringNumber [.string runtime, execpath]

/-- The arguments of `execvp` for `diff`. -/
def diffArgv (x : Session) : List (Option LuaString) :=
  ixlbExec h.tostringNumber
    [.string (bytes "diff"), .string (x.paths h).output,
      .string x.args.result]

/-- `judge` after the settings. -/
def judge (u : Uuid) (a : Args) : Session where
  uuid := u
  args := a
  phase := if Caster.needscompile a.language then .compiling else .evaluating
  tracee := .absent
  trace := []

/-- The child of `judge` that runs the compiler, and what it does to files. -/
def compilerRuns (x : Session) (m : Files) (pid : Int) (child : CompilerChild)
    (wrote : List (LuaString × Option LuaString)) : Session × Files :=
  ({ x with
      phase := .compiled pid child.ending
      trace := x.trace ++
        [.exec (compilerArgv h.tostringNumber
          (x.args.tool (Caster.compilerTag x.args.language)) x.args.source
          (x.paths h).exec)] },
    wrote.foldl (fun m e => Function.update m e.1 e.2)
      (openWrite h m (x.paths h).cclog []))

/-- The callback of the child watcher in `judge`: what it does, and the next
phase. -/
def judgeCallback (x : Session) (m : Files) (pid : Int) (e : ChildEnd) :
    List TracerEvent × Phase :=
  let status := watcherReport pid e
  if status.status ≠ 0 then
    match readall h m (x.paths h).cclog with
    | none => ([.raised], .done)
    | some log =>
        (writeStatus (tracerEnv h x pid) ⟨.CE, 0, 0, some log⟩, .done)
  else ([], .evaluating)

/-- The phase after an iteration of the loop of `evaluate_tracer`. -/
def phaseAfter (x : Session) (pid : Int) (s : TracerState) (w : Wait4) :
    Phase :=
  match (evaluateTracerBody (tracerEnv h x pid) s w).2 with
  | some t => .judging pid t
  | none =>
      let used := usage (tracerEnv h x pid) w
      if wifexited (statusWord w) then .comparing used.1 used.2 none
      else .done

/-- The process of the program after a result of `wait4`. -/
def traceeAfter (tracee : Tracee) (w : Wait4) : Tracee :=
  match w with
  | .failed => tracee
  | .reported r =>
      if wifexited r.status || wifsignaled r.status then .ended else tracee

/-- How `diff` ended, when its callback looks. -/
def diffEnd (x : Session) (m : Files) (status : Word) : DiffEnd where
  status := status
  size := (m (cString (x.paths h).diff)).map List.length

/-- The events of the daemon and of the tracer, as a step. -/
def happen (x : Session) (m : Files) (es : List TracerEvent) (phase : Phase)
    (inDaemon : Bool) : Outcome (Option Session) LuaString (Option LuaString) where
  component := some (x.after es phase)
  store := es.foldl (storeEvent h x.args.outfile) m
  endsHost := inDaemon && es.contains .raised

/-- A step that only other programs notice. -/
def quietly (x : Session) (m : Files) :
    Outcome (Option Session) LuaString (Option LuaString) where
  component := some x
  store := m
  endsHost := false

/-- One step of a session; `none` where the label is not enabled. -/
def act (k : Act) (s : Option Session) (m : Files) :
    Option (Outcome (Option Session) LuaString (Option LuaString)) :=
  match k, s with
  | .judge u a, none => some (quietly (judge u a) m)
  | .compilerRuns pid child wrote, some x =>
      if x.phase = .compiling then
        let r := compilerRuns h x m pid child wrote
        some (quietly r.1 r.2)
      else none
  | .compilerReaped, some x =>
      match x.phase with
      | .compiled pid e =>
          let r := judgeCallback h x m pid e
          some (happen h x m r.1 r.2 true)
      | _ => none
  | .forksProgram pid, some x =>
      if x.phase = .evaluating then
        some (quietly
          { x with
            phase := .judging pid .start
            tracee := .forked } m)
      else none
  | .programSetup, some x =>
      if x.tracee = .forked then
        some (quietly
          { x with
            tracee := .running
            trace := x.trace ++ [.exec (programArgv h x)] }
          (openWrite h m (x.paths h).output []))
      else none
  | .programWrites path content, some x =>
      if x.tracee = .running then
        some (quietly x (Function.update m path content))
      else none
  | .waited w, some x =>
      match x.phase with
      | .judging pid s =>
          let es := (evaluateTracerBody (tracerEnv h x pid) s w).1
          some (happen h { x with tracee := traceeAfter x.tracee w } m es
            (phaseAfter h x pid s w) false)
      | _ => none
  | .diffRuns status out, some x =>
      match x.phase with
      | .comparing time mem none =>
          some (quietly
            { x with
              phase := .comparing time mem (some status)
              trace := x.trace ++ [.exec (diffArgv h x)] }
            (openWrite h m (x.paths h).diff out))
      | _ => none
  | .diffReaped, some x =>
      match x.phase with
      | .comparing time mem (some status) =>
          let es := diffCallback (tracerEnv h x 0) time mem
            (diffEnd h x m status)
          some (happen h x m es .done false)
      | _ => none
  | _, _ => none

/-- `judge` and the callback of the child watcher run in the daemon. -/
def inDaemon : Act → Bool
  | .judge _ _ => true
  | .compilerReaped => true
  | _ => false

/-- All sessions over the files. -/
def behaviour : Behaviour Act (Option Session) LuaString (Option LuaString) where
  act := act h
  needsHost := inDaemon

/-- The daemon before the first request. -/
def init (files : Files) :
    System Nat (Option Session) LuaString (Option LuaString) where
  component := fun _ => none
  store := files
  host := true

end Steps

end Sessions
end Iojxd
