import Iojxd.Caster
import Iojxd.LuaTable

/-!
# Settings of a judge call

The first lines of `judge` in `oj/iojxd.lua` and `parse` of
`oj/config_parse.lua`, over an explicit store of tables.  `judge` writes the
defaults and the whitelist of the language into the table that the client
passed, and that table stays with the client.  Defaults that are tables are
written as references: `source` of `defaults_args`, and the lists of
`caster.syscall_whitelist`.

A language without compiler is evaluated within the call.  Otherwise the call
waits for its compiler, and the callback of the child watcher reads the settings
from the table as it stands then: `write_status` after an error, `evaluate` and
its children after success.  The children run on a copy of the store, made when
they are forked.

A client uses the tables it made and those it has read from tables it uses.  It
has no function that lists the keys of a table.
-/

namespace Iojxd
namespace Judge

/-- The tables that exist at start-up: `caster.syscall_whitelist`, its six
lists, `defaults_args` and the `source` of `defaults_args`. -/
def casterRef : Nat := 0
def listRef (i : Nat) : Nat := i + 1
def defaultsRef : Nat := 7
def sourceRef : Nat := 8
def bootCount : Nat := 9

def key (name : String) : LuaValue :=
  .string (bytes name)

/-- `caster.syscall_whitelist`. -/
def casterTable : LuaTable :=
  .ofEntries (Caster.syscallWhitelist.zipIdx.map fun e =>
    (.number e.1.1, .table (listRef e.2)))

/-- The paths of `defaults_args` that depend on the platform. -/
structure PlatformPaths where
  source : LuaString
  data : LuaString
  result : LuaString
  outfile : LuaString
  c : LuaString
  cxx : LuaString

def platformPaths (isDarwin : Bool) : PlatformPaths :=
  if isDarwin then
    { source := bytes "/Users/secondatke/Desktop/apb.cpp"
      data := bytes "/Users/secondatke/Desktop/in.in"
      result := bytes "/Users/secondatke/Desktop/out.out"
      outfile := bytes "/Users/secondatke/Desktop/out.txt"
      c := bytes "/usr/bin/clang"
      cxx := bytes "/usr/bin/clang++" }
  else
    { source := bytes "/home/secondwtq/iojxd_test/apb.cpp"
      data := bytes "/home/secondwtq/iojxd_test/in.in"
      result := bytes "/home/secondwtq/iojxd_test/out.out"
      outfile := bytes "/home/secondwtq/iojxd_test/out.txt"
      c := bytes "/usr/bin/gcc"
      cxx := bytes "/usr/bin/g++" }

/-- `defaults_args`. -/
def defaultsArgs (isDarwin : Bool) : LuaTable :=
  let paths := platformPaths isDarwin
  .ofEntries
    [(key "source", .table sourceRef),
      (key "language", .number 1),
      (key "flags", key "-O3 -g"),
      (key "data", .string paths.data),
      (key "result", .string paths.result),
      (key "time", .number 5),
      (key "mem", .number 3),
      (key "outfile", .string paths.outfile),
      (key "c", .string paths.c),
      (key "cxx", .string paths.cxx),
      (key "javac", key ""),
      (key "java", key ""),
      (key "py", key "/usr/local/bin/python"),
      (key "js", key "jsrunner"),
      (key "lua", key "lua"),
      (key "syscall_whitelist", .nil),
      (key "sbuid", .number 2048),
      (key "sbgid", .number 2048),
      (key "dummy", key "")]

/-- The store at start-up. -/
def boot (isDarwin : Bool) (ref : Nat) : LuaTable :=
  if ref = casterRef then casterTable
  else if ref = defaultsRef then defaultsArgs isDarwin
  else if ref = sourceRef then
    .array [.string (platformPaths isDarwin).source]
  else
    match Caster.syscallWhitelist[ref - 1]? with
    | some e => .array (e.2.map .string)
    | none => ∅

/-- `config_parse.parse`, on the tables of two references. -/
def parse (store : Nat → LuaTable) (src defaults : Nat) : Nat → LuaTable :=
  Function.update store src ((store src).fillMissing (store defaults))

/-- `judge` up to the line that sets `args.syscall_whitelist`. -/
def judgeSettings (store : Nat → LuaTable) (args : Nat) : Nat → LuaTable :=
  let store := parse store args defaultsRef
  if (store args).get (key "syscall_whitelist") = .nil then
    Function.update store args
      ((store args).set (key "syscall_whitelist")
        ((store casterRef).get ((store args).get (key "language"))))
  else store

/-! ## The language and what depends on it -/

/-- The language whose number a value is. -/
def languageNamed (v : LuaValue) : Option Caster.Language :=
  [.C, .CXX, .Python, .Java, .JavaScript, .Lua].find? fun l =>
    decide (v = .number l.number)

/-- `caster.needscompile[args.language]`. -/
def needscompile (language : LuaValue) : Bool :=
  (languageNamed language).any Caster.needscompile

/-- `args.source[1]` raises no error. -/
def indexable : LuaValue → Bool
  | .table _ => true
  | .string _ => true
  | .userdata _ => true
  | _ => false

/-- With these settings `judge` starts a compiler and its child watcher. -/
def startsCompiler (args : LuaTable) : Bool :=
  needscompile (args.get (key "language")) &&
    indexable (args.get (key "source"))

/-- The fields of `args` that the callback of the child watcher reads:
`write_status`, `evaluate_child_setup`, `evaluate` and `evaluate_tracer`. -/
def callbackReads (language : LuaValue) : List LuaValue :=
  [key "outfile", key "time", key "data", key "language", key "result",
      key "syscall_whitelist"] ++
    (languageNamed language).toList.map fun l => .string (Caster.runtimeTag l)

/-! ## Clients and calls -/

/-- A call of `judge`: its table, with the store and the marks of the table
before the call. -/
structure Call where
  args : Nat
  store : Nat → LuaTable
  filled : LuaValue → Option LuaValue

/-- `filled ref k` is the language of the call that filled the field `k` of
`ref`, as long as the client has not assigned the field since.  `waiting` are
the calls whose compiler runs. -/
structure State where
  store : Nat → LuaTable
  next : Nat
  knows : List (Nat × Nat)
  filled : Nat → LuaValue → Option LuaValue
  waiting : List Call

def init (isDarwin : Bool) : State where
  store := boot isDarwin
  next := bootCount
  knows := []
  filled := fun _ _ => none
  waiting := []

/-- A new empty table. -/
def alloc (s : State) : State :=
  { s with
    store := Function.update s.store s.next ∅
    next := s.next + 1
    filled := Function.update s.filled s.next fun _ => none }

/-- `ref[k] = v`. -/
def assignTo (store : Nat → LuaTable) (ref : Nat) (k v : LuaValue) :
    Nat → LuaTable :=
  Function.update store ref ((store ref).set k v)

def callOf (s : State) (args : Nat) : Call where
  args := args
  store := s.store
  filled := s.filled args

/-- A call of `judge` on a table. -/
def judgeOn (s : State) (args : Nat) : State :=
  let store := judgeSettings s.store args
  { s with
    store := store
    filled := Function.update s.filled args fun k =>
      if (s.store args).get k = .nil ∧ (store args).get k ≠ .nil then
        some ((store args).get (key "language"))
      else s.filled args k
    waiting :=
      if startsCompiler (store args) then callOf s args :: s.waiting
      else s.waiting }

/-- The client can name the value: it is no table, or one that it knows. -/
def canUse (knows : List (Nat × Nat)) (client : Nat) : LuaValue → Bool
  | .table ref => knows.contains (client, ref)
  | _ => true

/-- What clients do: make a table, read and assign fields, call `judge` on a
table made by a client or on nothing; and the end of the compiler of a waiting
call, with the callback. -/
inductive Label where
  | newTable (client : Nat)
  | read (client ref : Nat) (k : LuaValue)
  | assign (client ref : Nat) (k v : LuaValue)
  | judge (client args : Nat)
  | judgeNil (client : Nat)
  | compiled (i : Nat)

/-- The step function; `none` where the label is not enabled. -/
def step (s : State) : Label → Option State
  | .newTable client =>
      some { alloc s with knows := (client, s.next) :: s.knows }
  | .read client ref k =>
      if s.knows.contains (client, ref) then
        match (s.store ref).get k with
        | .table q => some { s with knows := (client, q) :: s.knows }
        | _ => some s
      else none
  | .assign client ref k v =>
      if s.knows.contains (client, ref) && canUse s.knows client k &&
          canUse s.knows client v && k != .nil then
        some
          { s with
            store := assignTo s.store ref k v
            filled := Function.update s.filled ref
              (Function.update (s.filled ref) k none) }
      else none
  | .judge client args =>
      if s.knows.contains (client, args) && decide (bootCount ≤ args) then
        some (judgeOn s args)
      else none
  | .judgeNil _ => some (judgeOn (alloc s) s.next)
  | .compiled i =>
      if i < s.waiting.length then
        some { s with waiting := s.waiting.eraseIdx i }
      else none

/-- The language of a call, before the call. -/
def languageOf (s : State) (args : Nat) : LuaValue :=
  if (s.store args).get (key "language") = .nil then
    (s.store defaultsRef).get (key "language")
  else (s.store args).get (key "language")

/-! ## What a call writes -/

section Call

variable {store : Nat → LuaTable} {args : Nat}

/-- A call writes to no other table. -/
theorem judgeSettings_ne
    {ref : Nat} (h : ref ≠ args) :
    judgeSettings store args ref = store ref := by
  unfold judgeSettings parse
  split
  · rw [Function.update_of_ne h, Function.update_of_ne h]
  · rw [Function.update_of_ne h]

theorem get_parse (store : Nat → LuaTable) (args : Nat) (k : LuaValue) :
    (parse store args defaultsRef args).get k =
      if (store args).get k = .nil then (store defaultsRef).get k
      else (store args).get k := by
  rw [parse, Function.update_self]
  exact LuaTable.get_fillMissing _ _ k

/-- A field that has a value keeps it. -/
theorem get_judgeSettings_of_ne_nil
    {k : LuaValue} (h : (store args).get k ≠ .nil) :
    (judgeSettings store args args).get k = (store args).get k := by
  have hp := get_parse store args k
  rw [if_neg h] at hp
  unfold judgeSettings
  split
  · rename_i hw
    have hk : k ≠ key "syscall_whitelist" := by
      rintro rfl
      rw [hp] at hw
      exact h hw
    rw [Function.update_self, LuaTable.get_set_ne _ _ hk]
    exact hp
  · exact hp

theorem get_judgeSettings_default
    {k : LuaValue} (h : (store args).get k = .nil)
    (hk : k ≠ key "syscall_whitelist") :
    (judgeSettings store args args).get k = (store defaultsRef).get k := by
  have hp := get_parse store args k
  rw [if_pos h] at hp
  unfold judgeSettings
  split
  · rw [Function.update_self, LuaTable.get_set_ne _ _ hk]
    exact hp
  · exact hp

end Call

theorem get_judgeSettings_language (s : State) (args : Nat) :
    (judgeSettings s.store args args).get (key "language") =
      languageOf s args := by
  unfold languageOf
  split
  · rename_i h
    exact get_judgeSettings_default h (by decide)
  · rename_i h
    exact get_judgeSettings_of_ne_nil h

theorem get_judgeSettings_whitelist
    {s : State} {args : Nat}
    (hcaster : casterRef ≠ args)
    (hdef : (s.store defaultsRef).get (key "syscall_whitelist") = .nil)
    (h : (s.store args).get (key "syscall_whitelist") = .nil) :
    (judgeSettings s.store args args).get (key "syscall_whitelist") =
      (s.store casterRef).get (languageOf s args) := by
  have hp := get_parse s.store args (key "syscall_whitelist")
  rw [if_pos h, hdef] at hp
  have hlang := get_parse s.store args (key "language")
  unfold judgeSettings
  rw [if_pos hp, Function.update_self, LuaTable.get_set_self, hlang]
  congr 1
  rw [parse, Function.update_of_ne hcaster]

end Judge
end Iojxd
