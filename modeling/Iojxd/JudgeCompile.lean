import Iojxd.ChildTermination
import Iojxd.JudgeSettings
import Iojxd.LuaFiles

/-!
# The compiler of a judge call

The compiling branch of `judge` in `oj/iojxd.lua`: the child that runs the
compiler, the argument vector it passes to `execvp`, and the callback of the
child watcher that either evaluates the program or writes a compile error.

The callback runs in the daemon, so a Lua error that leaves it ends the server.
Console output is left out.  How a number is printed where it names a file is
the parameter `tostringNumber`.
-/

namespace Iojxd
namespace JudgeCompile

open ChildTermination LuaFiles Judge WaitStatus

/-! ## The argument vector -/

/-- An expression in an argument list: one value, or a call with its results. -/
inductive ArgExp where
  | value (v : LuaValue)
  | call (results : List LuaValue)

/-- The values of an argument list: a call that is not the last expression gives
one value. -/
def argValues : List ArgExp → List LuaValue
  | [] => []
  | .value v :: es => v :: argValues es
  | [.call results] => results
  | .call results :: es => results.headD .nil :: argValues es

/-- `lua_tostring`: a C string, or `NULL`. -/
def luaTostring (tostringNumber : ℚ → LuaString) (v : LuaValue) :
    Option LuaString :=
  (v.concatOperand tostringNumber).map cString

/-- The vector that `ixlb_exec` passes to `execvp`; `none` is `NULL`. -/
def ixlbExec (tostringNumber : ℚ → LuaString) (stack : List LuaValue) :
    List (Option LuaString) :=
  stack.map (luaTostring tostringNumber) ++ [none]

/-- The call of `iojx.util.exec` in the compiler's child; `source` are the
elements of `args.source`, which `unpack` gives. -/
def compilerArgv (tostringNumber : ℚ → LuaString)
    (compiler : LuaString) (source : List LuaString) (exec : LuaString) :
    List (Option LuaString) :=
  ixlbExec tostringNumber
    (argValues
      [.value (.string compiler),
        .call (source.map .string),
        .value (key "-o"),
        .value (.string exec)])

/-- The vector of the whole submission. -/
def wholeArgv (compiler : LuaString) (source : List LuaString)
    (exec : LuaString) : List (Option LuaString) :=
  some (cString compiler) :: source.map (fun s => some (cString s)) ++
    [some (bytes "-o"), some (cString exec), none]

theorem compilerArgv_eq (tostringNumber : ℚ → LuaString)
    (compiler : LuaString) (source : List LuaString) (exec : LuaString) :
    compilerArgv tostringNumber compiler source exec =
      [some (cString compiler), source.head?.map cString, some (bytes "-o"),
        some (cString exec), none] := by
  cases source with
  | nil => rfl
  | cons s source => rfl

/-- **Arguments of the compiler**: only the first element of `args.source` gets
into the vector, so the compiler sees the whole submission exactly if it is one
file. -/
theorem compiler_argv_whole_iff (tostringNumber : ℚ → LuaString)
    (compiler : LuaString) (source : List LuaString) (exec : LuaString) :
    compilerArgv tostringNumber compiler source exec =
        wholeArgv compiler source exec ↔
      source.length = 1 := by
  rw [compilerArgv_eq]
  constructor
  · intro h
    have hlength := congrArg List.length h
    simp only [wholeArgv, List.length_cons, List.length_append,
      List.length_map, List.length_nil] at hlength
    omega
  · intro h
    obtain ⟨s, rfl⟩ := List.length_eq_one_iff.mp h
    rfl

/-- The second of two files is lost. -/
theorem compiler_argv_two_files :
    compilerArgv (fun _ => []) (bytes "/usr/bin/g++")
        [bytes "a.cpp", bytes "b.cpp"] (bytes "a.out") ≠
      wholeArgv (bytes "/usr/bin/g++")
        [bytes "a.cpp", bytes "b.cpp"] (bytes "a.out") := by
  decide

/-! ## The callback -/

/-- How the compiler's child runs: `execvp` fails, or the compiler runs and
ends. -/
inductive CompilerChild where
  | execFails (core : Bool)
  | execs (e : ChildEnd)

/-- How the child ends: behind a failed `execvp` stands `assert(0)`. -/
def CompilerChild.ending : CompilerChild → ChildEnd
  | .execFails core => .signaled SIGABRT core
  | .execs e => e

/-- What the callback did when it returned. -/
inductive Done where
  | evaluated
  | compileError
deriving DecidableEq

/-- The number as `tostring` gives it. -/
def tostringNat (n : Nat) : LuaString :=
  bytes (toString n)

/-- `readall`. -/
def readall (filename : LuaString) : LuaM (Option LuaString) := do
  match ← openRead filename with
  | none => throw (.indexNil (bytes "f"))
  | some f => readAll f

section Callback

variable (tostringNumber : ℚ → LuaString) (args : LuaTable) (cclog : LuaString)

/-- `write_status`, with the arguments that the callback gives it. -/
def writeStatus (status : Caster.Status) (time mem : Nat)
    (log : Option LuaString) : LuaM Unit := do
  let name ← checkString tostringNumber 1 (args.get (key "outfile"))
  match ← openWrite name with
  | none => throw (.indexNil (bytes "out"))
  | some out =>
      write out (tostringNat ((Caster.status status).getD 0) ++ bytes "\n")
      write out
        (tostringNat time ++ bytes " " ++ tostringNat mem ++ bytes "\n")
      match log with
      | none => return
      | some log => write out log

/-- The callback of the child watcher in `judge`; `cclog` is `paths.cclog`. -/
def judgeCallback (watcher : EvChild) : LuaM Done := do
  let status := ixutChildwGetstatus watcher
  if status.status ≠ 0 then
    let log ← readall cclog
    writeStatus tostringNumber args .CE 0 0 log
    return .compileError
  else return .evaluated

/-- The callback at the end of the compiler's child. -/
def afterCompiler (pid : Int) (child : CompilerChild) : LuaM Done :=
  judgeCallback tostringNumber args cclog
    (childReap (evChildSet pid) pid child.ending.raw)

end Callback

/-- The status line and the resource line of a compile error. -/
def compileErrorLines : LuaString :=
  bytes "400\n0 0\n"

section Outcome

variable {tostringNumber : ℚ → LuaString} {args : LuaTable}
variable {cclog : LuaString} {fs : FileSystem}

/-- The compiler log can be opened. -/
def LogOpens (fs : FileSystem) (cclog : LuaString) : Prop :=
  (fs (cString cclog)).readable = true

/-- `args.outfile` is a string or a number, and names a file that can be opened
for writing. -/
def OutfileOpens (tostringNumber : ℚ → LuaString) (args : LuaTable)
    (fs : FileSystem) : Prop :=
  ∃ name, (args.get (key "outfile")).concatOperand tostringNumber = some name ∧
    (fs (cString name)).writable = true

theorem readall_opens (h : LogOpens fs cclog) :
    readall cclog fs = .ok ((fs (cString cclog)).content, fs) := by
  have hopen : openRead cclog fs = .ok (some (cString cclog), fs) := by
    rw [openRead_run, if_pos (show (fs (cString cclog)).readable = true from h)]
  rw [readall, bind_ok hopen]
  exact readAll_run _

theorem readall_refused (h : ¬ LogOpens fs cclog) :
    readall cclog fs = .error (.indexNil (bytes "f")) := by
  have hopen : openRead cclog fs = .ok (none, fs) := by
    rw [openRead_run, if_neg (show ¬ (fs (cString cclog)).readable = true from h)]
  rw [readall, bind_ok hopen]
  rfl

/-- What the outfile holds after `write_status`. -/
theorem writeStatus_opens
    {name : LuaString}
    (hname : (args.get (key "outfile")).concatOperand tostringNumber = some name)
    (hopen : (fs (cString name)).writable = true)
    (status : Caster.Status) (time mem : Nat) (log : Option LuaString) :
    ∃ fs', writeStatus tostringNumber args status time mem log fs =
        .ok ((), fs') ∧
      (fs' (cString name)).content =
        some (tostringNat ((Caster.status status).getD 0) ++ bytes "\n" ++
          (tostringNat time ++ bytes " " ++ tostringNat mem ++ bytes "\n") ++
          log.getD []) := by
  have hout : openWrite name fs =
      .ok (some (cString name), Function.update fs (cString name)
        { fs (cString name) with content := some [] }) := by
    rw [openWrite_run, if_pos hopen]
  rw [writeStatus, bind_ok (checkString_some 1 hname), bind_ok hout]
  dsimp only
  rw [bind_ok (write_run _ _), bind_ok (write_run _ _)]
  cases log with
  | none => exact ⟨_, rfl, by simp⟩
  | some log => exact ⟨_, write_run _ _, by simp⟩

theorem writeStatus_refused
    (h : ¬ OutfileOpens tostringNumber args fs)
    (status : Caster.Status) (time mem : Nat) (log : Option LuaString) :
    ∃ e, writeStatus tostringNumber args status time mem log fs =
      .error e := by
  cases hname : (args.get (key "outfile")).concatOperand tostringNumber with
  | none =>
      refine ⟨.badArgument 1, ?_⟩
      rw [writeStatus, bind_error (checkString_none 1 hname)]
  | some name =>
      have hclosed : ¬ (fs (cString name)).writable = true :=
        fun hopen => h ⟨name, hname, hopen⟩
      have hout : openWrite name fs = .ok (none, fs) := by
        rw [openWrite_run, if_neg hclosed]
      refine ⟨.indexNil (bytes "out"), ?_⟩
      rw [writeStatus, bind_ok (checkString_some 1 hname), bind_ok hout]
      rfl

/-! ## The callback after each end -/

variable {pid : Int} {child : CompilerChild}

/-- What a compile error should leave in the outfile: the two lines, and the log
when that can be read. -/
def compileErrorText (fs : FileSystem) (cclog : LuaString) : LuaString :=
  compileErrorLines ++ ((fs (cString cclog)).content).getD []

theorem afterCompiler_eq :
    afterCompiler tostringNumber args cclog pid child =
      if wexitstatus child.ending.raw ≠ 0 then do
        let log ← readall cclog
        writeStatus tostringNumber args .CE 0 0 log
        return .compileError
      else return .evaluated := by
  have hreport := watcherReport_eq pid child.ending
  unfold watcherReport at hreport
  rw [afterCompiler, judgeCallback, hreport]

theorem afterCompiler_zero
    (h : wexitstatus child.ending.raw = 0) :
    afterCompiler tostringNumber args cclog pid child fs =
      .ok (.evaluated, fs) := by
  rw [afterCompiler_eq, if_neg (not_not_intro h)]
  rfl

theorem afterCompiler_opens
    {name : LuaString}
    (h : wexitstatus child.ending.raw ≠ 0)
    (hlog : LogOpens fs cclog)
    (hname : (args.get (key "outfile")).concatOperand tostringNumber = some name)
    (hopen : (fs (cString name)).writable = true) :
    ∃ fs', afterCompiler tostringNumber args cclog pid child fs =
        .ok (.compileError, fs') ∧
      (fs' (cString name)).content = some (compileErrorText fs cclog) := by
  obtain ⟨fs', hwrite, hcontent⟩ :=
    writeStatus_opens hname hopen .CE 0 0 (fs (cString cclog)).content
  refine ⟨fs', ?_, hcontent⟩
  rw [afterCompiler_eq, if_pos h, bind_ok (readall_opens hlog), bind_ok hwrite]
  rfl

theorem afterCompiler_refused
    (h : wexitstatus child.ending.raw ≠ 0)
    (hfiles : ¬ (LogOpens fs cclog ∧ OutfileOpens tostringNumber args fs)) :
    ∃ e, afterCompiler tostringNumber args cclog pid child fs = .error e := by
  by_cases hlog : LogOpens fs cclog
  · have hout : ¬ OutfileOpens tostringNumber args fs :=
      fun hopen => hfiles ⟨hlog, hopen⟩
    obtain ⟨e, he⟩ :=
      writeStatus_refused hout .CE 0 0 (fs (cString cclog)).content
    refine ⟨e, ?_⟩
    rw [afterCompiler_eq, if_pos h, bind_ok (readall_opens hlog), bind_error he]
  · refine ⟨.indexNil (bytes "f"), ?_⟩
    rw [afterCompiler_eq, if_pos h, bind_error (readall_refused hlog)]

end Outcome

/-! ## Which submissions are evaluated -/

section Laws

variable (tostringNumber : ℚ → LuaString) (args : LuaTable) (cclog : LuaString)
variable (fs : FileSystem) (pid : Int)

/-- The callback has written a compile error to the outfile. -/
def WritesCompileError (child : CompilerChild) : Prop :=
  ∃ fs' name, afterCompiler tostringNumber args cclog pid child fs =
      .ok (.compileError, fs') ∧
    (args.get (key "outfile")).concatOperand tostringNumber = some name ∧
    (fs' (cString name)).content = some (compileErrorText fs cclog)

/-- The callback evaluates after an exit with code 0, and otherwise writes a
compile error. -/
def OnlySuccessEvaluated (child : CompilerChild) : Prop :=
  ((∃ fs', afterCompiler tostringNumber args cclog pid child fs =
      .ok (.evaluated, fs')) ↔ child.ending = .exited 0) ∧
    (child.ending ≠ .exited 0 →
      WritesCompileError tostringNumber args cclog fs pid child)

theorem wexitstatus_exited_ne {code : BitVec 8} (hcode : code ≠ 0) :
    wexitstatus (CompilerChild.execs (.exited code)).ending.raw ≠ 0 := by
  change wexitstatus (ChildEnd.exited code).raw ≠ 0
  rw [wexitstatus_exited]
  exact fun h => hcode (BitVec.eq_of_toNat_eq h)

theorem onlySuccess_exited_zero :
    OnlySuccessEvaluated tostringNumber args cclog fs pid
      (.execs (.exited 0)) := by
  have hok : afterCompiler tostringNumber args cclog pid
      (.execs (.exited 0)) fs = .ok (.evaluated, fs) :=
    afterCompiler_zero (wexitstatus_exited 0)
  exact ⟨⟨fun _ => rfl, fun _ => ⟨fs, hok⟩⟩, fun hne => absurd rfl hne⟩

theorem onlySuccess_exited_iff {code : BitVec 8} (hcode : code ≠ 0) :
    OnlySuccessEvaluated tostringNumber args cclog fs pid
        (.execs (.exited code)) ↔
      LogOpens fs cclog ∧ OutfileOpens tostringNumber args fs := by
  have hne := wexitstatus_exited_ne hcode
  have hend : (CompilerChild.execs (.exited code)).ending ≠ .exited 0 := by
    intro h
    exact hcode (ChildEnd.exited.inj h)
  constructor
  · rintro ⟨_, herror⟩
    obtain ⟨fs', _, hfs', -⟩ := herror hend
    by_contra hfiles
    obtain ⟨e, he⟩ := afterCompiler_refused hne hfiles
    rw [he] at hfs'
    cases hfs'
  · rintro ⟨hlog, name, hname, hopen⟩
    obtain ⟨fs', hfs', hcontent⟩ := afterCompiler_opens hne hlog hname hopen
    refine ⟨⟨?_, fun h => absurd h hend⟩,
      fun _ => ⟨fs', name, hfs', hname, hcontent⟩⟩
    rintro ⟨fs'', hfs''⟩
    rw [hfs'] at hfs''
    cases hfs''

theorem not_onlySuccess_signaled
    (child : CompilerChild) {sig : Signal} {core : Bool}
    (hend : child.ending = .signaled sig core) :
    ¬ OnlySuccessEvaluated tostringNumber args cclog fs pid child := by
  rintro ⟨heval, _⟩
  have hzero : wexitstatus child.ending.raw = 0 := by
    rw [hend, wexitstatus_signaled]
  have hexit := heval.mp ⟨fs, afterCompiler_zero hzero⟩
  rw [hend] at hexit
  cases hexit

/-- **Only a successful compilation is evaluated**, with the condition under
which the code keeps to it: the compiler runs and ends by an exit, and where its
code is not zero, log and outfile can be opened.  The exit code field of a
termination by a signal is zero too. -/
theorem only_success_evaluated_iff (child : CompilerChild) :
    OnlySuccessEvaluated tostringNumber args cclog fs pid child ↔
      ∃ code, child = .execs (.exited code) ∧
        (code ≠ 0 → LogOpens fs cclog ∧ OutfileOpens tostringNumber args fs) := by
  cases child with
  | execFails core =>
      have hno := not_onlySuccess_signaled tostringNumber args cclog fs pid
        (.execFails core) rfl
      simp [hno]
  | execs e =>
      cases e with
      | exited code =>
          simp only [CompilerChild.execs.injEq, ChildEnd.exited.injEq,
            exists_eq_left']
          by_cases hcode : code = 0
          · subst hcode
            constructor
            · intro _ hne
              exact absurd rfl hne
            · intro _
              exact onlySuccess_exited_zero tostringNumber args cclog fs pid
          · rw [onlySuccess_exited_iff tostringNumber args cclog fs pid hcode]
            constructor
            · intro hfiles _
              exact hfiles
            · intro hfiles
              exact hfiles hcode
      | signaled sig core =>
          have hno := not_onlySuccess_signaled tostringNumber args cclog fs pid
            (.execs (.signaled sig core)) rfl
          simp [hno]

/-- A compiler that could not be executed is evaluated as if it had
succeeded. -/
theorem failed_exec_evaluated :
    ¬ OnlySuccessEvaluated (fun _ => []) ∅ (bytes "compiler.log")
        (fun _ => ⟨true, true, some []⟩) 100 (.execFails true) ∧
      ∃ fs', afterCompiler (fun _ => []) ∅ (bytes "compiler.log") 100
          (.execFails true) (fun _ => ⟨true, true, some []⟩) =
        .ok (.evaluated, fs') := by
  have hok : afterCompiler (fun _ => []) ∅ (bytes "compiler.log") 100
      (.execFails true) (fun _ => ⟨true, true, some []⟩) =
        .ok (.evaluated, fun _ => ⟨true, true, some []⟩) :=
    afterCompiler_zero (wexitstatus_signaled SIGABRT true)
  refine ⟨?_, _, hok⟩
  rintro ⟨heval, _⟩
  have hexit := heval.mp ⟨_, hok⟩
  cases hexit

/-- After a failed compilation the callback returns, and an outfile that can be
opened holds the two lines of the compile error and the log. -/
def SurvivesFiles (child : CompilerChild) : Prop :=
  ∃ done fs', afterCompiler tostringNumber args cclog pid child fs =
      .ok (done, fs') ∧
    ∀ name,
      (args.get (key "outfile")).concatOperand tostringNumber = some name →
      (fs (cString name)).writable = true →
        (fs' (cString name)).content = some (compileErrorText fs cclog)

/-- **File failures**: after an exit with a code other than zero the callback
does its work exactly if both files can be opened; otherwise it raises. -/
theorem survives_files_iff (code : BitVec 8) (hcode : code ≠ 0) :
    SurvivesFiles tostringNumber args cclog fs pid (.execs (.exited code)) ↔
      LogOpens fs cclog ∧ OutfileOpens tostringNumber args fs := by
  have hne := wexitstatus_exited_ne hcode
  constructor
  · rintro ⟨done, fs', hfs', _⟩
    by_contra hfiles
    obtain ⟨e, he⟩ := afterCompiler_refused hne hfiles
    rw [he] at hfs'
    cases hfs'
  · rintro ⟨hlog, name, hname, hopen⟩
    obtain ⟨fs', hfs', hcontent⟩ := afterCompiler_opens hne hlog hname hopen
    refine ⟨.compileError, fs', hfs', ?_⟩
    intro name' hname' _
    rw [hname] at hname'
    cases hname'
    exact hcontent

end Laws

/-- With both files open the callback writes the compile error. -/
theorem survives_files_sample :
    SurvivesFiles (fun _ => []) (.ofEntries [(key "outfile", key "out.txt")])
        (bytes "compiler.log")
        (fun _ => ⟨true, true, some []⟩) 100 (.execs (.exited 1)) ↔
      LogOpens (fun _ => ⟨true, true, some []⟩) (bytes "compiler.log") ∧
        OutfileOpens (fun _ => []) (.ofEntries [(key "outfile", key "out.txt")])
          (fun _ => ⟨true, true, some []⟩) :=
  survives_files_iff (fun _ => [])
    (.ofEntries [(key "outfile", key "out.txt")]) (bytes "compiler.log")
    (fun _ => ⟨true, true, some []⟩) 100 1 (by decide)

/-- The outfile cannot be opened: the callback raises in the daemon. -/
theorem refused_outfile_raises :
    ¬ SurvivesFiles (fun _ => [])
        (.ofEntries [(key "outfile", key "/root/out.txt")])
        (bytes "compiler.log")
        (fun _ => ⟨true, false, some []⟩) 100 (.execs (.exited 1)) ∧
      afterCompiler (fun _ => [])
          (.ofEntries [(key "outfile", key "/root/out.txt")])
          (bytes "compiler.log") 100 (.execs (.exited 1))
          (fun _ => ⟨true, false, some []⟩) =
        .error (.indexNil (bytes "out")) := by
  have herror : afterCompiler (fun _ => [])
      (.ofEntries [(key "outfile", key "/root/out.txt")])
      (bytes "compiler.log") 100 (.execs (.exited 1))
      (fun _ => ⟨true, false, some []⟩) =
        .error (.indexNil (bytes "out")) := by
    rfl
  refine ⟨?_, herror⟩
  rintro ⟨done, fs', hfs', _⟩
  rw [herror] at hfs'
  cases hfs'

end JudgeCompile
end Iojxd
