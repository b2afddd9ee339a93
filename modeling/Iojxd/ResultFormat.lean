import Iojxd.SessionVerdicts

/-!
# Reading a result file

`docs/Spec.md` gives the format of the outfile: a line with the status code, a
line with time and memory, and behind them the log.  A reader of this format
gets back what `write_status` was given.  Numbers are printed by Lua; what the
format needs of this printing is stated as `Prints`.
-/

namespace Iojxd
namespace Sessions

open Tracer SharedStore TransitionRun TextFields

/-- Lua prints no line break and no blank, and whole numbers of up to fourteen
digits in decimal. -/
structure Prints (print : ℚ → LuaString) : Prop where
  plain : ∀ q, 10 ∉ print q ∧ 32 ∉ print q
  nat : ∀ n : Nat, n < 100000000000000 → print n = decimal n

/-- What the reader of a result file finds. -/
structure Result where
  status : Caster.Status
  time : LuaString
  mem : LuaString
  log : LuaString
deriving DecidableEq

/-- `lcaster.status_code`, as a function. -/
def statusOfCode (code : Nat) : Option Caster.Status :=
  (Caster.statusCode.find? fun entry => entry.1 = code).map Prod.snd

/-- The format of `docs/Spec.md`. -/
def readResult (text : LuaString) : Option Result := do
  let (first, rest) ← cut 10 text
  let (second, log) ← cut 10 rest
  let (time, mem) ← cut 32 second
  let code ← readDecimal first
  let status ← statusOfCode code
  return ⟨status, time, mem, log⟩

/-- The code of a status is small and leads back to it. -/
theorem statusOfCode_status (v : Caster.Status) :
    ∃ code, Caster.status v = some code ∧ code < 100000000000000 ∧
      statusOfCode code = some v := by
  cases v
  all_goals exact ⟨_, rfl, by decide, by decide⟩

section Read

variable {h : Host}

/-- **Round trip**: what `write_status` writes is read back. -/
theorem readResult_recordText
    (hprint : Prints h.tostringNumber) (r : StatusRecord) :
    readResult (recordText h r) =
      some ⟨r.status, h.tostringNumber r.time, h.tostringNumber r.mem,
        r.log.getD []⟩ := by
  obtain ⟨code, hcode, hlt, hback⟩ := statusOfCode_status r.status
  have htext : recordText h r = decimal code ++ 10 ::
      ((h.tostringNumber r.time ++ 32 :: h.tostringNumber r.mem) ++ 10 ::
        r.log.getD []) := by
    simp [recordText, hcode, hprint.nat code hlt, bytes]
  have hfirst : 10 ∉ decimal code := by
    intro hmem
    have hdigit := mem_decimal hmem
    revert hdigit
    decide
  have hsecond : 10 ∉ h.tostringNumber r.time ++ 32 :: h.tostringNumber r.mem := by
    simp only [List.mem_append, List.mem_cons, not_or]
    exact ⟨(hprint.plain _).1, by decide, (hprint.plain _).1⟩
  rw [htext, readResult, cut_append hfirst]
  simp only [bind, Option.bind_some]
  rw [cut_append hsecond]
  simp only [Option.bind_some]
  rw [cut_append (hprint.plain r.time).2]
  simp [readDecimal_decimal, hback]

/-- **The result file can be read**: in every interleaving in which the others
keep apart and the programs of the session leave the outfile alone, a reader of
the format finds the status of the session, its time and memory as they were
printed, and its log. -/
theorem outfile_readable
    (hprint : Prints h.tostringNumber) (hplain : h.PlainTmpPath)
    {i : Nat} {u : Uuid} {a : Args} {files : Files} {ls : List Label}
    (hown : ∀ u' a', (i, .judge u' a') ∈ ls → u' = u ∧ a' = a)
    (hapart : Apart h i u a ls)
    (hself : ∀ k, (i, k) ∈ ls → OutfileApart h u a k)
    {t : System Nat (Option Session) LuaString (Option LuaString)}
    (hrun : run (behaviour h).step (init files) ls = some t)
    {x : Session} (hx : t.component i = some x)
    {r : StatusRecord} (hr : x.results = [r])
    (hopen : h.writable (cString a.outfile) = true) :
    (t.store (cString a.outfile)).bind readResult =
      some ⟨r.status, h.tostringNumber r.time, h.tostringNumber r.mem,
        r.log.getD []⟩ := by
  obtain ⟨hstart, hwritten⟩ := written_run hplain hown hapart hself hrun
  have hargs : x.args = a := (hstart x hx).2
  rw [← hargs] at hopen ⊢
  rw [hwritten x hx r hr hopen, Option.bind_some]
  exact readResult_recordText hprint r

theorem prints_sampleHost : Prints sampleHost.tostringNumber where
  plain := by
    intro q
    simp only [sampleHost]
    split
    · constructor
      · intro hmem
        have hdigit := mem_decimal hmem
        revert hdigit
        decide
      · intro hmem
        have hdigit := mem_decimal hmem
        revert hdigit
        decide
    · decide
  nat := by
    intro n _
    simp [sampleHost]

theorem outfile_readable_accepted :
    ∃ t, run (behaviour sampleHost).step (init sampleFiles) sampleLabels =
        some t ∧
      (t.store (bytes "/a")).bind readResult =
        some ⟨.AC, decimal 0, decimal 0, []⟩ := by
  obtain ⟨t, x, ht, hx, -, -, hr⟩ := sampleLabels_run
  have hread := outfile_readable prints_sampleHost plainTmpPath_sampleHost
    sampleLabels_own apart_sampleLabels
    sampleLabels_self ht hx hr rfl
  have hzero : sampleHost.tostringNumber 0 = decimal 0 := by
    simp [sampleHost]
  refine ⟨t, ht, ?_⟩
  rw [show bytes "/a" = cString (sampleArgs "/a").outfile from rfl, hread]
  simp [hzero]

end Read

end Sessions
end Iojxd
