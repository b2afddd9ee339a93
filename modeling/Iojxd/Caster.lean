import Iojxd.LuaValue

/-!
# The enumerations of `oj/caster.lua`

Status names with their codes, and the languages with their compiler needs and
system call whitelists.
-/

namespace Iojxd
namespace Caster

/-- The status names. -/
inductive Status where
  | UNKNOWN
  | AC
  | TLE
  | WA
  | MLE
  | RE
  | CE
deriving DecidableEq

/-- `lcaster.status_code`. -/
def statusCode : List (Nat × Status) :=
  [(0, .UNKNOWN), (200, .AC), (504, .TLE), (404, .WA), (413, .MLE),
    (500, .RE), (400, .CE)]

/-- `lcaster.status`: the table inverse to `status_code`. -/
def status (v : Status) : Option Nat :=
  (statusCode.find? fun entry => entry.2 = v).map Prod.fst

/-- The two tables are inverse to each other. -/
theorem status_eq_some_iff (v : Status) (code : Nat) :
    status v = some code ↔ (code, v) ∈ statusCode := by
  cases v <;> simp [status, statusCode, eq_comm]

/-- `lcaster.languages`. -/
def C : ℚ := 0
def CXX : ℚ := 1
def Python : ℚ := 2
def Java : ℚ := 3
def JavaScript : ℚ := 4
def Lua : ℚ := 5

/-- The keys of the tables below. -/
inductive Language where
  | C
  | CXX
  | Python
  | Java
  | JavaScript
  | Lua
deriving DecidableEq

/-- The number of a language. -/
def Language.number : Language → ℚ
  | .C => Caster.C
  | .CXX => Caster.CXX
  | .Python => Caster.Python
  | .Java => Caster.Java
  | .JavaScript => Caster.JavaScript
  | .Lua => Caster.Lua

/-- `lcaster.needscompile`. -/
def needscompile : Language → Bool
  | .C => true
  | .CXX => true
  | .Java => true
  | .Python => false
  | .JavaScript => false
  | .Lua => false

/-- `lcaster.compiler_tag`. -/
def compilerTag : Language → LuaString
  | .C => bytes "c"
  | .CXX => bytes "cxx"
  | .Java => bytes "javac"
  | .Python => bytes "dummy"
  | .JavaScript => bytes "dummy"
  | .Lua => bytes "dummy"

/-- `lcaster.runtime_tag`. -/
def runtimeTag : Language → LuaString
  | .C => bytes "dummy"
  | .CXX => bytes "dummy"
  | .Java => bytes "java"
  | .Python => bytes "py"
  | .JavaScript => bytes "js"
  | .Lua => bytes "lua"

/-- The whitelist shared in content by C and C++. -/
def whitelistNative : List LuaString :=
  ["read", "write", "mmap", "mprotect", "munmap", "exit_group", "open",
    "close", "arch_prctl", "fstat", "access", "brk"].map bytes

def whitelistPython : List LuaString :=
  ["read", "write", "mmap", "munmap", "mprotect", "exit_group", "open",
    "close", "brk", "fstat", "lstat", "rt_sigaction", "lseek", "ioctl",
    "fcntl", "readlink", "getrlimit", "rt_sigprocmask", "stat",
    "set_robust_list", "futex", "access", "set_tid_address", "arch_prctl",
    "getuid", "getgid", "geteuid", "getegid", "getdents"].map bytes

/-- `lcaster.syscall_whitelist` as it stands at start-up. -/
def syscallWhitelist : List (ℚ × List LuaString) :=
  [(C, whitelistNative), (CXX, whitelistNative), (Java, []),
    (Python, whitelistPython), (JavaScript, []), (Lua, [])]

end Caster
end Iojxd
