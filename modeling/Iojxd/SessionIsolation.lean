import Iojxd.SessionRuns
import Iojxd.TextFields
import Mathlib.Data.Set.Lattice
import Mathlib.Order.CompletePartialOrder

/-!
# Sessions that judge at the same time

All sessions keep their files under one directory, each in a subdirectory named
by its uuid.  From this it follows that sessions do not disturb each other: what
a session does in any interleaving is what it does alone, as long as the files
that the requests name and the files that the submitted programs write to are
not those of another session.
-/

namespace Iojxd
namespace Sessions

open ChildTermination Tracer WaitStatus SharedStore TransitionRun
open JudgeCompile (CompilerChild)

/-! ## Names of session files -/

theorem notMem_addSlash {src : LuaString} (hsrc : (0 : UInt8) ∉ src) :
    (0 : UInt8) ∉ addSlash src := by
  unfold addSlash
  split
  · rw [List.mem_append, not_or]
    exact ⟨hsrc, by decide⟩
  · exact hsrc

/-- The configured directory has no NUL. -/
def Host.PlainTmpPath (h : Host) : Prop :=
  ∀ path, h.configured = some path → (0 : UInt8) ∉ path

theorem notMem_tmpPath {h : Host} (hplain : h.PlainTmpPath) :
    (0 : UInt8) ∉ h.tmpPath := by
  apply notMem_addSlash
  cases hc : h.configured with
  | none => decide
  | some path => exact hplain path hc

/-- A file of a session, as the system sees its name. -/
def sessionFile (h : Host) (u : Uuid) (name : LuaString) : LuaString :=
  cString (sessionDir h.tmpPath u ++ name)

/-- The names that `judge` gives to the files of a session. -/
def fileNames : List LuaString :=
  ["compiler.log", "a.out", "tmp.out", "diff.diff"].map bytes

def sessionFiles (h : Host) (u : Uuid) : Set LuaString :=
  {p | ∃ name ∈ fileNames, p = sessionFile h u name}

section Names

variable {h : Host}

theorem sessionFile_eq
    (hplain : h.PlainTmpPath) (u : Uuid) {name : LuaString}
    (hname : name ∈ fileNames) :
    sessionFile h u name = h.tmpPath ++ (u.text ++ 47 :: name) := by
  have hnul : (0 : UInt8) ∉ name := by
    revert name
    decide
  have hall : (0 : UInt8) ∉ h.tmpPath ++ (u.text ++ 47 :: name) := by
    simp only [List.mem_append, List.mem_cons, not_or]
    exact ⟨notMem_tmpPath hplain, fun hu => (u.plain 0 hu).1 rfl, by decide, hnul⟩
  have happend : sessionDir h.tmpPath u ++ name =
      h.tmpPath ++ (u.text ++ 47 :: name) := by
    simp [sessionDir, bytes]
  rw [sessionFile, happend]
  exact (cString_eq_self_iff _).mpr hall

/-- **Session files are named apart**: the name gives uuid and file back. -/
theorem sessionFile_inj
    (hplain : h.PlainTmpPath) {u u' : Uuid} {name name' : LuaString}
    (hname : name ∈ fileNames) (hname' : name' ∈ fileNames)
    (heq : sessionFile h u name = sessionFile h u' name') :
    u.text = u'.text ∧ name = name' := by
  rw [sessionFile_eq hplain u hname, sessionFile_eq hplain u' hname'] at heq
  have hrest := List.append_cancel_left heq
  have hu : (47 : UInt8) ∉ u.text := fun hb => (u.plain 47 hb).2 rfl
  have hslash : (47 : UInt8) ∉ name := by
    clear heq hrest
    revert name
    decide
  -- the first slash behind the directory ends the uuid
  obtain ⟨htext, _, hnames⟩ :=
    (List.append_cons_inj_of_notMem hu hslash).mp hrest
  exact ⟨htext, hnames⟩

theorem disjoint_sessionFiles
    (hplain : h.PlainTmpPath) {u u' : Uuid} (hne : u.text ≠ u'.text) :
    Disjoint (sessionFiles h u) (sessionFiles h u') := by
  rw [Set.disjoint_left]
  rintro p ⟨name, hname, rfl⟩ ⟨name', hname', heq⟩
  exact hne (sessionFile_inj hplain hname hname' heq).1

end Names

/-- The files that the judging of a request depends on. -/
def footprint (h : Host) (u : Uuid) (a : Args) : Set LuaString :=
  sessionFiles h u ∪ {cString a.outfile, cString a.result}

section Footprint

variable {h : Host} {x : Session}

theorem cclog_mem (h : Host) (x : Session) :
    cString (x.paths h).cclog ∈ sessionFiles h x.uuid :=
  ⟨bytes "compiler.log", by decide, rfl⟩

theorem output_mem (h : Host) (x : Session) :
    cString (x.paths h).output ∈ sessionFiles h x.uuid :=
  ⟨bytes "tmp.out", by decide, rfl⟩

theorem diff_mem (h : Host) (x : Session) :
    cString (x.paths h).diff ∈ sessionFiles h x.uuid :=
  ⟨bytes "diff.diff", by decide, rfl⟩

end Footprint

/-! ## A session stays inside its footprint -/

/-- The component of a session that was started by one request. -/
def StartedBy (u : Uuid) (a : Args) (s : Option Session) : Prop :=
  ∀ x, s = some x → x.uuid = u ∧ x.args = a

section Within

variable {h : Host} {u : Uuid} {a : Args}

theorem startedBy_of_move
    {k : Act} {s : Option Session} {m : Files}
    {o : Outcome (Option Session) LuaString (Option LuaString)}
    (hk : ∀ u' a', k = .judge u' a' → u' = u ∧ a' = a)
    (hs : StartedBy u a s) (hm : Move h k s m o) :
    StartedBy u a o.component := by
  intro y hy
  cases s with
  | none =>
      cases hm with
      | judge u' a' =>
          cases hy
          exact hk u' a' rfl
  | some x =>
      obtain ⟨z, hz, huuid, hargs⟩ := request_of_move hm
      rw [hz] at hy
      cases hy
      rw [huuid, hargs]
      exact hs x rfl

/-- The callback of the compiler's watcher reads the log only. -/
theorem judgeCallback_congr
    {x : Session} {m m' : Files}
    (hlog : m (cString (x.paths h).cclog) = m' (cString (x.paths h).cclog))
    (pid : Int) (e : ChildEnd) :
    judgeCallback h x m pid e = judgeCallback h x m' pid e := by
  unfold judgeCallback readall
  rw [hlog]

theorem within_footprint
    {k : Act} {s : Option Session} (hs : StartedBy u a s) :
    (behaviour h).Within (footprint h u a) k s := by
  intro m m' o hm ho
  change ∃ o', act h k s m' = some o' ∧ o'.component = o.component ∧
    o'.endsHost = o.endsHost ∧ Set.EqOn o.store o'.store (footprint h u a)
  have hfiles : ∀ x, s = some x → ∀ p ∈ sessionFiles h x.uuid, m p = m' p := by
    intro x hx p hp
    apply hm
    rw [(hs x hx).1] at hp
    exact Or.inl hp
  cases act_eq_some_iff.mp ho with
  | judge u' a' => exact ⟨_, act_eq_some_iff.mpr (.judge u' a' m'), rfl, rfl, hm⟩
  | compilerRuns _ pid child wrote hphase =>
      refine ⟨_, act_eq_some_iff.mpr (.compilerRuns m' pid child wrote hphase),
        rfl, rfl, ?_⟩
      exact eqOn_wrote (eqOn_openWrite hm _ _) wrote
  | @compilerReaped x _ pid e hphase =>
      have hcall : judgeCallback h x m pid e = judgeCallback h x m' pid e :=
        judgeCallback_congr (hfiles x rfl _ (cclog_mem h x)) pid e
      rw [hcall]
      refine ⟨_, act_eq_some_iff.mpr (.compilerReaped m' hphase), rfl, rfl, ?_⟩
      exact eqOn_storeEvents hm _ _
  | forksProgram _ pid hphase =>
      exact ⟨_, act_eq_some_iff.mpr (.forksProgram m' pid hphase), rfl, rfl, hm⟩
  | programSetup _ htracee =>
      refine ⟨_, act_eq_some_iff.mpr (.programSetup m' htracee), rfl, rfl, ?_⟩
      exact eqOn_openWrite hm _ _
  | programWrites _ path content htracee =>
      refine ⟨_, act_eq_some_iff.mpr (.programWrites m' path content htracee),
        rfl, rfl, ?_⟩
      exact eqOn_update hm _ _
  | waited _ w hphase =>
      refine ⟨_, act_eq_some_iff.mpr (.waited m' w hphase), rfl, rfl, ?_⟩
      exact eqOn_storeEvents hm _ _
  | diffRuns _ status out hphase =>
      refine ⟨_, act_eq_some_iff.mpr (.diffRuns m' status out hphase),
        rfl, rfl, ?_⟩
      exact eqOn_openWrite hm _ _
  | @diffReaped x _ time mem status hphase =>
      have hend : diffEnd h x m status = diffEnd h x m' status := by
        unfold diffEnd
        rw [hfiles x rfl _ (diff_mem h x)]
      rw [hend]
      refine ⟨_, act_eq_some_iff.mpr (.diffReaped m' hphase), rfl, rfl, ?_⟩
      exact eqOn_storeEvents hm _ _

end Within

/-! ## Other sessions -/

/-- The files that other programs change in a step. -/
def programFiles : Act → List LuaString
  | .compilerRuns _ _ wrote => wrote.map Prod.fst
  | .programWrites path _ => [path]
  | _ => []

/-- Every file that a session may change. -/
theorem touched_cases
    {h : Host} {x : Session} {k : Act} {p : LuaString}
    (hp : p ∈ touched h x k) :
    p ∈ sessionFiles h x.uuid ∨ p = cString x.args.outfile ∨
      p ∈ programFiles k := by
  cases k with
  | compilerRuns pid child wrote =>
      rcases List.mem_cons.mp hp with rfl | hp
      · exact Or.inl (cclog_mem h x)
      · exact Or.inr (Or.inr hp)
  | programSetup =>
      rw [List.mem_singleton.mp hp]
      exact Or.inl (output_mem h x)
  | programWrites path content => exact Or.inr (Or.inr hp)
  | diffRuns status out =>
      rw [List.mem_singleton.mp hp]
      exact Or.inl (diff_mem h x)
  | compilerReaped => exact Or.inr (Or.inl (List.mem_singleton.mp hp))
  | waited w => exact Or.inr (Or.inl (List.mem_singleton.mp hp))
  | diffReaped => exact Or.inr (Or.inl (List.mem_singleton.mp hp))
  | _ => cases hp

abbrev Label := Nat × Act

/-- The session `i` and the others keep apart: the uuids of the others are
different, they are asked to write to other outfiles, the files named in the
request of `i` are not session files of others, and no other program changes a
file that the judging of `i` depends on. -/
structure Apart (h : Host) (i : Nat) (u : Uuid) (a : Args) (ls : List Label) :
    Prop where
  uuids : ∀ j u' a', (j, .judge u' a') ∈ ls → j ≠ i → u'.text ≠ u.text
  outfiles : ∀ j u' a', (j, .judge u' a') ∈ ls → j ≠ i →
    cString a'.outfile ∉ footprint h u a
  named : ∀ j u' a', (j, .judge u' a') ∈ ls → j ≠ i →
    cString a.outfile ∉ sessionFiles h u' ∧
      cString a.result ∉ sessionFiles h u'
  programs : ∀ j k, (j, k) ∈ ls → j ≠ i →
    ∀ p ∈ programFiles k, p ∉ footprint h u a

/-- Every session was started by one of the labels. -/
def Requested (ls : List Label) (s : System Nat (Option Session) LuaString
    (Option LuaString)) : Prop :=
  ∀ j x, s.component j = some x → (j, .judge x.uuid x.args) ∈ ls

section Others

variable {h : Host} {ls : List Label}
variable {s t : System Nat (Option Session) LuaString (Option LuaString)}

theorem requested_init (files : Files) : Requested ls (init files) := by
  intro j x hx
  cases hx

theorem requested_step
    {l : Label} (hl : l ∈ ls) (hs : Requested ls s)
    (ht : (behaviour h).step s l = some t) :
    Requested ls t := by
  obtain ⟨j, k⟩ := l
  obtain ⟨o, hmove, hcomponent, _⟩ := move_of_step ht
  intro i y hy
  by_cases hj : j = i
  · subst hj
    rw [hcomponent] at hy
    cases hc : s.component j with
    | none =>
        rw [hc] at hmove
        cases hmove with
        | judge u a =>
            cases hy
            exact hl
    | some x =>
        rw [hc] at hmove
        obtain ⟨z, hz, huuid, hargs⟩ := request_of_move hmove
        rw [hz] at hy
        cases hy
        rw [huuid, hargs]
        exact hs j x hc
  · rw [Behaviour.component_of_ne ht hj] at hy
    exact hs i y hy

theorem requested_run
    {files : Files} {ks : List Label} (hks : ∀ l ∈ ks, l ∈ ls)
    (hrun : run (behaviour h).step (init files) ks = some t) :
    Requested ls t :=
  run_invariant_of_mem (fun _ _ l hl hs ht => requested_step (hks l hl) hs ht)
    (requested_init files) hrun

/-- A step of another session that keeps apart leaves the footprint alone. -/
theorem spares_step
    {i : Nat} {u : Uuid} {a : Args} (hplain : h.PlainTmpPath)
    (hapart : Apart h i u a ls) (hs : Requested ls s)
    {l : Label} (hl : l ∈ ls) (hi : l.1 ≠ i)
    (ht : (behaviour h).step s l = some t) :
    Set.EqOn t.store s.store (footprint h u a) := by
  obtain ⟨j, k⟩ := l
  obtain ⟨o, hmove, _, hstore⟩ := move_of_step ht
  rw [hstore]
  cases hc : s.component j with
  | none =>
      rw [hc] at hmove
      cases hmove with
      | judge u' a' => exact fun _ _ => rfl
  | some x =>
      rw [hc] at hmove
      have hrequest := hs j x hc
      intro p hp
      apply store_of_notMem_touched hmove
      intro htouched
      rcases touched_cases htouched with hfile | rfl | hprogram
      · have hdisjoint := disjoint_sessionFiles hplain
          (hapart.uuids j _ _ hrequest hi)
        obtain ⟨hout, hres⟩ := hapart.named j _ _ hrequest hi
        rcases hp with hown | rfl | rfl
        · exact Set.disjoint_left.mp hdisjoint hfile hown
        · exact hout hfile
        · exact hres hfile
      · exact hapart.outfiles j _ _ hrequest hi hp
      · exact hapart.programs j k hl hi p hprogram hp

theorem undisturbed_of_apart
    {i : Nat} {u : Uuid} {a : Args} (hplain : h.PlainTmpPath)
    (hapart : Apart h i u a ls) (hs : Requested ls s) :
    (behaviour h).Undisturbed i (footprint h u a) s ls := by
  apply everyStep_of_invariant (I := Requested ls) _ hs
  intro s t l hl hs ht
  refine ⟨fun hi => ?_, requested_step hl hs ht⟩
  exact spares_step hplain hapart hs hl hi ht

end Others

/-- **Sessions do not disturb each other**: in every interleaving in which the
others keep apart, a session comes to the same phase with the same events, and
its files have the same contents, as in the run of its own labels. -/
theorem session_isolated
    {h : Host} (hplain : h.PlainTmpPath) {i : Nat} {u : Uuid} {a : Args}
    {files : Files} {ls : List Label}
    (hown : ∀ u' a', (i, .judge u' a') ∈ ls → u' = u ∧ a' = a)
    (hapart : Apart h i u a ls)
    {t : System Nat (Option Session) LuaString (Option LuaString)}
    (hrun : run (behaviour h).step (init files) ls = some t) :
    ∃ t', run (behaviour h).step (init files) (Behaviour.own i ls) = some t' ∧
      t'.component i = t.component i ∧
      Set.EqOn t.store t'.store (footprint h u a) := by
  have hkeep : ∀ k x m o, (i, k) ∈ ls → StartedBy u a x →
      (behaviour h).act k x m = some o → StartedBy u a o.component := by
    intro k x m o hk hx ho
    apply startedBy_of_move _ hx (act_eq_some_iff.mp ho)
    rintro u' a' rfl
    exact hown u' a' hk
  have hwithin : ∀ k x, (i, k) ∈ ls → StartedBy u a x →
      (behaviour h).Within (footprint h u a) k x :=
    fun k x _ hx => within_footprint hx
  have hstart : StartedBy u a ((init files).component i) := by
    rintro x ⟨⟩
  have hothers : (behaviour h).Undisturbed i (footprint h u a) (init files) ls :=
    undisturbed_of_apart hplain hapart (requested_init files)
  obtain ⟨t', ht', hsame⟩ := Behaviour.run_own hkeep hwithin hstart
    (Behaviour.SameFor.refl i (footprint h u a) (init files)) hothers hrun
  exact ⟨t', ht', hsame.component, hsame.store⟩

/-! ## Two sessions -/

section Sample

/-- Every file can be opened, and whole numbers are printed in decimal. -/
def sampleHost : Host where
  readable := fun _ => true
  writable := fun _ => true
  syscallName := fun _ => bytes "read"
  configured := none
  tostringNumber := fun q =>
    if q = q.num.toNat then TextFields.decimal q.num.toNat else bytes "?"

theorem plainTmpPath_sampleHost : sampleHost.PlainTmpPath := by
  rintro path ⟨⟩

theorem plain_of_all
    {text : LuaString} (h : text.all (fun b => b != 0 && b != 47) = true) :
    ∀ b ∈ text, b ≠ 0 ∧ b ≠ 47 := by
  simpa using h

def sampleUuid : Uuid where
  text := bytes "0a"
  plain := plain_of_all (by decide)

def sampleOther : Uuid where
  text := bytes "0b"
  plain := plain_of_all (by decide)

def sampleArgs (outfile : String) : Args where
  source := [bytes "/main.py"]
  language := .Python
  data := bytes "/data.in"
  result := bytes "/data.out"
  outfile := bytes outfile
  syscallWhitelist := Caster.whitelistPython
  tool := fun tag => if tag = bytes "py" then bytes "/usr/bin/python" else []

def sampleFiles : Files :=
  fun path => if path = bytes "/data.out" then some (bytes "42") else none

/-- Two sessions up to the end of the program of the first one. -/
def sampleJudging : List Label :=
  [(0, .judge sampleUuid (sampleArgs "/a")),
    (1, .judge sampleOther (sampleArgs "/b")),
    (0, .forksProgram 7), (1, .forksProgram 8),
    (1, .programSetup), (0, .programSetup),
    (1, .programWrites (bytes "/tmp/iojxd/0b/tmp.out") (some (bytes "41"))),
    (0, .programWrites (bytes "/tmp/iojxd/0a/tmp.out") (some (bytes "42"))),
    (0, .waited (.reported ⟨0, ⟨0, 0, 0, 0, 0⟩, 0⟩))]

def sampleLabels : List Label :=
  sampleJudging ++ [(0, .diffRuns 0 [])] ++ [(0, .diffReaped)]

theorem sampleLabels_own :
    ∀ u' a', (0, .judge u' a') ∈ sampleLabels →
      u' = sampleUuid ∧ a' = sampleArgs "/a" := by
  intro u' a' h
  simpa [sampleLabels, sampleJudging] using h

theorem sampleLabels_other
    {j : Nat} {u' : Uuid} {a' : Args} (h : (j, .judge u' a') ∈ sampleLabels)
    (hj : j ≠ 0) :
    u' = sampleOther ∧ a' = sampleArgs "/b" := by
  simp only [sampleLabels, sampleJudging, List.mem_append, List.mem_cons,
    Prod.mk.injEq, Act.judge.injEq, reduceCtorEq, and_false, or_false,
    List.not_mem_nil] at h
  rcases h with h | h
  · exact absurd h.1 hj
  · exact h.2

theorem apart_sampleLabels :
    Apart sampleHost 0 sampleUuid (sampleArgs "/a") sampleLabels where
  uuids := by
    intro j u' a' h hj
    rw [(sampleLabels_other h hj).1]
    decide
  outfiles := by
    intro j u' a' h hj
    rw [(sampleLabels_other h hj).2]
    simp only [footprint, sessionFiles, fileNames]
    simp
    decide
  named := by
    intro j u' a' h hj
    rw [(sampleLabels_other h hj).1]
    simp only [sessionFiles, fileNames]
    simp
    decide
  programs := by
    intro j k h hj
    have hk : programFiles k = [] ∨
        k = .programWrites (bytes "/tmp/iojxd/0b/tmp.out")
          (some (bytes "41")) := by
      simp [sampleLabels, sampleJudging] at h
      rcases h with h | h | h | h | h | h | h | h | h | h | h
      all_goals first
        | exact absurd h.1 hj
        | exact Or.inl (h.2 ▸ rfl)
        | exact Or.inr h.2
    rcases hk with hk | rfl
    · simp [hk]
    · simp [programFiles, footprint, sessionFiles, fileNames]
      decide

theorem session_isolated_two :
    ∃ t, run (behaviour sampleHost).step (init sampleFiles) sampleLabels =
        some t ∧
      ∃ t', run (behaviour sampleHost).step (init sampleFiles)
          (Behaviour.own 0 sampleLabels) = some t' ∧
        t'.component 0 = t.component 0 ∧
        Set.EqOn t.store t'.store
          (footprint sampleHost sampleUuid (sampleArgs "/a")) := by
  obtain ⟨t, ht⟩ := Option.isSome_iff_exists.mp
    (by decide : (run (behaviour sampleHost).step (init sampleFiles)
      sampleLabels).isSome = true)
  exact ⟨t, ht, session_isolated plainTmpPath_sampleHost sampleLabels_own
    apart_sampleLabels ht⟩

end Sample

end Sessions
end Iojxd
