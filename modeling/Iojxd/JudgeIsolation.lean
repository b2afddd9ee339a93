import Iojxd.JudgeSettings
import Iojxd.TransitionRun

/-!
# Judge calls apart from each other

A call of `judge` uses the settings that the client put into the table for it;
what the client left out has its value from start-up, and the shared tables have
their contents from start-up in every state.  A call that waits for its compiler
may be evaluated in any state, so its settings are compared in all of them.

References make the difference: the law holds along a run exactly when no client
writes through one of them, no table is used for a second language with another
list, and no client changes what the callback of a waiting call is going to read.
-/

namespace Iojxd
namespace Judge

open TransitionRun

/-! ## The law -/

/-- What is read of a field that holds `v`: of the whitelist what `ipairs`
visits, of every other field the value. -/
def reading (store : Nat → LuaTable) (k v : LuaValue) :
    (Nat → LuaValue) ⊕ LuaValue :=
  match v with
  | .table ref =>
      if k = key "syscall_whitelist" then .inl (store ref).ipairs else .inr v
  | _ => .inr v

namespace Call

/-- What a field of the call's table reads as in a store. -/
def reads (c : Call) (store : Nat → LuaTable) (k : LuaValue) :
    (Nat → LuaValue) ⊕ LuaValue :=
  reading store k ((store c.args).get k)

/-- The client put a value into the field and no call of `judge` did. -/
def ClientPut (c : Call) (k : LuaValue) : Prop :=
  (c.store c.args).get k ≠ .nil ∧ c.filled k = none

instance (c : Call) (k : LuaValue) : Decidable (c.ClientPut k) :=
  inferInstanceAs (Decidable (_ ∧ _))

end Call

section Law

variable (start : Nat → LuaTable)

/-- The whitelist of a language at start-up. -/
def startList (language : LuaValue) : LuaValue :=
  (start casterRef).get language

/-- The value from start-up for a field that the client left out. -/
def fillValue (k language : LuaValue) : LuaValue :=
  if k = key "syscall_whitelist" then startList start language
  else (start defaultsRef).get k

/-- The tables of the start-up have their contents. -/
def SharedIntact (s : State) : Prop :=
  ∀ ref < bootCount, ∀ k, (s.store ref).get k = (start ref).get k

/-- The language the client put into the table, or the default. -/
def Call.language (c : Call) : LuaValue :=
  if c.ClientPut (key "language") then (c.store c.args).get (key "language")
  else (start defaultsRef).get (key "language")

/-- What the call should read from a field: what the client put there for the
call, or what the start-up has for it. -/
def Call.due (c : Call) (k : LuaValue) : (Nat → LuaValue) ⊕ LuaValue :=
  if c.ClientPut k then c.reads c.store k
  else reading start k (fillValue start k (c.language start))

/-- In a store the call reads from a field what it should. -/
def Call.Gets (c : Call) (store : Nat → LuaTable) (k : LuaValue) : Prop :=
  c.reads store k = c.due start k

/-- Evaluated in a store, the call would read from every field what it
should. -/
def Call.Evaluable (c : Call) (store : Nat → LuaTable) : Prop :=
  ∀ k ∈ callbackReads (c.language start), c.Gets start store k

/-- The call that a step makes. -/
def callMade (s : State) : Label → Option Call
  | .judge _ args => some (callOf s args)
  | .judgeNil _ => some (callOf (alloc s) s.next)
  | _ => none

/-- The call whose callback a step runs. -/
def callEnded (s : State) : Label → Option Call
  | .compiled i => s.waiting[i]?
  | _ => none

/-- No step changes a shared table; a call gets its settings when it is made,
when its callback runs, and would get them in every state between. -/
structure SettingsLaw (s : State) (l : Label) (t : State) : Prop where
  shared : SharedIntact start t
  made : ∀ c, callMade s l = some c → ∀ k, c.Gets start t.store k
  ended : ∀ c, callEnded s l = some c → c.Evaluable start s.store
  waiting : ∀ c ∈ t.waiting, c.Evaluable start t.store

/-- The list of a language at start-up, as it is read. -/
def startReading (language : LuaValue) : (Nat → LuaValue) ⊕ LuaValue :=
  reading start (key "syscall_whitelist") (startList start language)

/-- An assignment changes nothing in a shared table, nor what the callback of a
waiting call reads; a call on a table whose whitelist an earlier call filled in
is for a language with the same list. -/
def KeepsShared (s : State) : Label → Prop
  | .assign _ ref k v =>
      (ref < bootCount → (s.store ref).get k = v) ∧
        ∀ c ∈ s.waiting, ∀ q ∈ callbackReads (c.language start),
          c.reads (assignTo s.store ref k v) q = c.reads s.store q
  | .judge _ args =>
      ∀ language, s.filled args (key "syscall_whitelist") = some language →
        startReading start language = startReading start (languageOf s args)
  | _ => True

/-- Only tables that exist are known, and only such tables are stored. -/
structure Closed (s : State) : Prop where
  boot : bootCount ≤ s.next
  knows : ∀ p ∈ s.knows, p.2 < s.next
  values : ∀ ref k q, (s.store ref).get k = .table q → q < s.next

/-- The invariant: the law for the states, what the marks say, and that the
tables of waiting calls exist and lack no field that is going to be read. -/
structure Kept (s : State) : Prop where
  intact : SharedIntact start s
  closed : Closed s
  filled : ∀ ref k language, s.filled ref k = some language →
    bootCount ≤ ref ∧
      (s.store ref).get k = fillValue start k language ∧
      (s.store ref).get k ≠ .nil
  fresh : ∀ c ∈ s.waiting, c.args < s.next
  waiting : ∀ c ∈ s.waiting, c.Evaluable start s.store
  present : ∀ c ∈ s.waiting, ∀ k ∈ callbackReads (c.language start),
    (s.store c.args).get k ≠ .nil

end Law

/-! ## References -/

theorem boot_values
    {isDarwin : Bool} {ref : Nat} {k : LuaValue} {q : Nat}
    (h : (boot isDarwin ref).get k = .table q) :
    q < bootCount := by
  unfold boot at h
  split at h
  · have hmem := LuaTable.mem_of_get_ofEntries (k := k) h (by simp)
    simp [Caster.syscallWhitelist, listRef] at hmem
    unfold bootCount
    omega
  · split at h
    · have hmem := LuaTable.mem_of_get_ofEntries (k := k) h (by simp)
      simp [sourceRef, key] at hmem
      unfold bootCount
      omega
    · split at h
      · have hmem := LuaTable.mem_of_get_ofEntries (k := k) h (by simp)
        simp at hmem
      · split at h
        · have hmem := LuaTable.mem_of_get_ofEntries (k := k) h (by simp)
          simp [List.mem_zipIdx_iff_getElem?] at hmem
        · simp at h

theorem closed_init (isDarwin : Bool) : Closed (init isDarwin) where
  boot := Nat.le_refl _
  knows := by
    intro p hp
    cases hp
  values _ _ _ h := boot_values h

/-- A call writes only values that stand in the store. -/
theorem judgeSettings_values
    (store : Nat → LuaTable) (args ref : Nat) (k : LuaValue) :
    ∃ ref' k', (judgeSettings store args ref).get k = (store ref').get k' := by
  have hparse : ∀ ref k, ∃ ref' k',
      (parse store args defaultsRef ref).get k = (store ref').get k' := by
    intro ref k
    by_cases href : ref = args
    · subst href
      rw [get_parse]
      split
      · exact ⟨defaultsRef, k, rfl⟩
      · exact ⟨ref, k, rfl⟩
    · rw [parse, Function.update_of_ne href]
      exact ⟨ref, k, rfl⟩
  unfold judgeSettings
  split
  · by_cases href : ref = args
    · subst href
      rw [Function.update_self]
      by_cases hk : k = key "syscall_whitelist"
      · subst hk
        rw [LuaTable.get_set_self]
        exact hparse casterRef _
      · rw [LuaTable.get_set_ne _ _ hk]
        exact hparse ref k
    · rw [Function.update_of_ne href]
      exact hparse ref k
  · exact hparse ref k

section Steps

variable {s t : State}

theorem store_alloc_ne {ref : Nat} (h : ref ≠ s.next) :
    (alloc s).store ref = s.store ref := by
  exact Function.update_of_ne h _ _

theorem closed_alloc (h : Closed s) : Closed (alloc s) where
  boot := Nat.le_succ_of_le h.boot
  knows p hp := Nat.lt_succ_of_lt (h.knows p hp)
  values := by
    intro ref k q hq
    by_cases href : ref = s.next
    · subst href
      simp [alloc] at hq
    · rw [store_alloc_ne href] at hq
      exact Nat.lt_succ_of_lt (h.values ref k q hq)

theorem closed_judgeOn (h : Closed s) (args : Nat) :
    Closed (judgeOn s args) where
  boot := h.boot
  knows := h.knows
  values := by
    intro ref k q hq
    rcases judgeSettings_values s.store args ref k with ⟨ref', k', hval⟩
    change (judgeSettings s.store args ref).get k = .table q at hq
    rw [hval] at hq
    exact h.values ref' k' q hq

theorem lt_next_of_canUse
    (h : Closed s) {client q : Nat}
    (huse : canUse s.knows client (.table q) = true) :
    q < s.next :=
  h.knows (client, q) (List.contains_iff_mem.mp huse)

/-! ## What the steps do -/

theorem assign_eq_some
    {client ref : Nat} {k v : LuaValue}
    (ht : step s (.assign client ref k v) = some t) :
    (client, ref) ∈ s.knows ∧ canUse s.knows client v = true ∧
      t = { s with
        store := assignTo s.store ref k v
        filled := Function.update s.filled ref
          (Function.update (s.filled ref) k none) } := by
  simp only [step] at ht
  split at ht
  · rename_i hok
    simp only [Bool.and_eq_true] at hok
    exact ⟨List.contains_iff_mem.mp hok.1.1.1, hok.1.2,
      (Option.some.inj ht).symm⟩
  · cases ht

theorem judge_eq_some
    {client args : Nat}
    (ht : step s (.judge client args) = some t) :
    (client, args) ∈ s.knows ∧ bootCount ≤ args ∧ t = judgeOn s args := by
  simp only [step] at ht
  split at ht
  · rename_i hok
    simp only [Bool.and_eq_true, decide_eq_true_eq] at hok
    exact ⟨List.contains_iff_mem.mp hok.1, hok.2, (Option.some.inj ht).symm⟩
  · cases ht

/-- A read only adds a table to the known ones. -/
theorem read_eq_some
    {client ref : Nat} {k : LuaValue}
    (ht : step s (.read client ref k) = some t) :
    t = s ∨ ∃ q, (s.store ref).get k = .table q ∧
      t = { s with knows := (client, q) :: s.knows } := by
  simp only [step] at ht
  split at ht
  · split at ht
    · rename_i q hq
      exact Or.inr ⟨q, hq, (Option.some.inj ht).symm⟩
    · exact Or.inl (Option.some.inj ht).symm
  · cases ht

theorem compiled_eq_some
    {i : Nat} (ht : step s (.compiled i) = some t) :
    t = { s with waiting := s.waiting.eraseIdx i } := by
  simp only [step] at ht
  split at ht
  · exact (Option.some.inj ht).symm
  · cases ht

theorem closed_step
    {l : Label} (h : Closed s) (ht : step s l = some t) :
    Closed t := by
  cases l with
  | newTable client =>
      cases ht
      have halloc := closed_alloc h
      refine ⟨halloc.boot, ?_, halloc.values⟩
      intro p hp
      rcases List.mem_cons.mp hp with rfl | hp
      · exact Nat.lt_succ_self _
      · exact halloc.knows p hp
  | read client ref k =>
      rcases read_eq_some ht with rfl | ⟨q, hq, rfl⟩
      · exact h
      · refine ⟨h.boot, ?_, h.values⟩
        intro p hp
        rcases List.mem_cons.mp hp with rfl | hp
        · exact h.values ref k q hq
        · exact h.knows p hp
  | assign client ref k v =>
      rcases assign_eq_some ht with ⟨_, huse, rfl⟩
      refine ⟨h.boot, h.knows, ?_⟩
      intro ref' k' q hq
      by_cases href : ref' = ref
      · subst href
        simp only [assignTo, Function.update_self] at hq
        by_cases hk : k' = k
        · subst hk
          rw [LuaTable.get_set_self] at hq
          subst hq
          exact lt_next_of_canUse h huse
        · rw [LuaTable.get_set_ne _ _ hk] at hq
          exact h.values ref' k' q hq
      · simp only [assignTo, Function.update_of_ne href] at hq
        exact h.values ref' k' q hq
  | judge client args =>
      rcases judge_eq_some ht with ⟨_, _, rfl⟩
      exact closed_judgeOn h args
  | judgeNil client =>
      cases ht
      exact closed_judgeOn (closed_alloc h) s.next
  | compiled i =>
      cases compiled_eq_some ht
      exact ⟨h.boot, h.knows, h.values⟩

end Steps

/-! ## The start-up tables -/

theorem boot_defaults_whitelist (isDarwin : Bool) :
    (boot isDarwin defaultsRef).get (key "syscall_whitelist") = .nil := by
  cases isDarwin <;> decide

/-- No default stands at a number. -/
theorem boot_defaults_number (isDarwin : Bool) (n : ℕ) :
    (boot isDarwin defaultsRef).get (.number n) = .nil := by
  by_contra hne
  have hget : (defaultsArgs isDarwin).get (.number n) =
      (boot isDarwin defaultsRef).get (.number n) := rfl
  have hmem := LuaTable.mem_of_get_ofEntries hget hne
  simp [key] at hmem

/-- The whitelists are start-up tables. -/
theorem startList_lt
    {isDarwin : Bool} {language : LuaValue} {ref : Nat}
    (h : startList (boot isDarwin) language = .table ref) :
    ref < bootCount :=
  boot_values h

theorem language_eq_of_languageNamed
    {v : LuaValue} {l : Caster.Language} (h : languageNamed v = some l) :
    v = .number l.number := by
  simpa using List.find?_some h

/-- The fields that the callback of a compiled call reads have a value from
start-up. -/
theorem fillValue_ne_nil
    (isDarwin : Bool) {language k : LuaValue}
    (hlang : needscompile language = true) (hk : k ∈ callbackReads language) :
    fillValue (boot isDarwin) k language ≠ .nil := by
  unfold needscompile at hlang
  rcases hl : languageNamed language with _ | l
  · rw [hl] at hlang
    cases hlang
  · rw [hl] at hlang
    cases language_eq_of_languageNamed hl
    revert k
    cases l with
    | C => cases isDarwin <;> decide +kernel
    | CXX => cases isDarwin <;> decide +kernel
    | Java => cases isDarwin <;> decide +kernel
    | Python => cases hlang
    | JavaScript => cases hlang
    | Lua => cases hlang

theorem kept_init (isDarwin : Bool) :
    Kept (boot isDarwin) (init isDarwin) where
  intact _ _ _ := rfl
  closed := closed_init isDarwin
  filled := by
    intro ref k language h
    cases h
  fresh := by
    intro c hc
    cases hc
  waiting := by
    intro c hc
    cases hc
  present := by
    intro c hc
    cases hc

/-! ## What is read of a field -/

section Readings

variable {store store' : Nat → LuaTable}

/-- A value reads the same in two stores in which its table has the same
list. -/
theorem reading_congr
    {k v : LuaValue}
    (h : ∀ ref, v = .table ref → (store' ref).ipairs = (store ref).ipairs) :
    reading store' k v = reading store k v := by
  unfold reading
  cases v with
  | table ref => simp only [h ref rfl]
  | _ => rfl

theorem reading_of_ne
    {k v : LuaValue} (h : k ≠ key "syscall_whitelist") :
    reading store k v = .inr v := by
  unfold reading
  cases v with
  | table ref => simp only [if_neg h]
  | _ => rfl

/-- Nothing but nil reads as nil. -/
theorem reading_eq_nil {k v : LuaValue} (h : reading store k v = .inr .nil) :
    v = .nil := by
  unfold reading at h
  cases v with
  | table ref => by_cases hk : k = key "syscall_whitelist" <;> simp [hk] at h
  | _ => exact Sum.inr.inj h

/-- The call reads the same in two stores in which the field is the same and,
where it is a table, has the same list. -/
theorem Call.reads_congr
    (c : Call) {k : LuaValue}
    (hget : (store' c.args).get k = (store c.args).get k)
    (hlist : ∀ ref, (store c.args).get k = .table ref →
      (store' ref).ipairs = (store ref).ipairs) :
    c.reads store' k = c.reads store k := by
  unfold Call.reads
  rw [hget]
  exact reading_congr hlist

end Readings

section Steps

variable {isDarwin : Bool} {s : State}

theorem reading_fillValue
    (h : SharedIntact (boot isDarwin) s) (k language : LuaValue) :
    reading s.store k (fillValue (boot isDarwin) k language) =
      reading (boot isDarwin) k (fillValue (boot isDarwin) k language) := by
  by_cases hk : k = key "syscall_whitelist"
  · apply reading_congr
    intro ref href
    rw [fillValue, if_pos hk] at href
    exact LuaTable.ipairs_congr fun n => h ref (startList_lt href) _
  · rw [reading_of_ne hk, reading_of_ne hk]

/-- A call does not change a list: it fills in fields with names only. -/
theorem ipairs_judgeSettings
    (h : SharedIntact (boot isDarwin) s) (args ref : Nat) :
    (judgeSettings s.store args ref).ipairs = (s.store ref).ipairs := by
  by_cases href : ref = args
  · subst href
    apply LuaTable.ipairs_congr
    intro n
    by_cases hn : (s.store ref).get (.number n) = .nil
    · rw [get_judgeSettings_default hn (by simp [key]), hn,
        h defaultsRef (by decide)]
      exact boot_defaults_number isDarwin n
    · exact get_judgeSettings_of_ne_nil hn
  · rw [judgeSettings_ne href]

theorem reading_judgeSettings
    (h : SharedIntact (boot isDarwin) s) (args : Nat) (k v : LuaValue) :
    reading (judgeSettings s.store args) k v = reading s.store k v :=
  reading_congr fun ref _ => ipairs_judgeSettings h args ref

/-! ## The invariant -/

/-- What reads the same stays evaluable. -/
theorem evaluable_of_reads
    {store store' : Nat → LuaTable} {c : Call}
    (hreads : ∀ k ∈ callbackReads (c.language (boot isDarwin)),
      c.reads store' k = c.reads store k)
    (h : c.Evaluable (boot isDarwin) store) :
    c.Evaluable (boot isDarwin) store' := by
  intro k hk
  exact (hreads k hk).trans (h k hk)

theorem reads_alloc
    (h : Kept (boot isDarwin) s) {c : Call} (hc : c ∈ s.waiting)
    (k : LuaValue) :
    c.reads (alloc s).store k = c.reads s.store k := by
  apply Call.reads_congr
  · rw [store_alloc_ne (Nat.ne_of_lt (h.fresh c hc))]
  · intro ref href
    rw [store_alloc_ne (Nat.ne_of_lt (h.closed.values _ _ _ href))]

theorem kept_alloc (h : Kept (boot isDarwin) s) :
    Kept (boot isDarwin) (alloc s) where
  intact ref href k := by
    have hne : ref ≠ s.next := by
      have := h.closed.boot
      omega
    rw [store_alloc_ne hne]
    exact h.intact ref href k
  closed := closed_alloc h.closed
  filled := by
    intro ref k language hf
    by_cases href : ref = s.next
    · subst href
      simp [alloc] at hf
    · rw [store_alloc_ne href]
      have hf' : s.filled ref k = some language := by
        simpa [alloc, Function.update_of_ne href] using hf
      exact h.filled ref k language hf'
  fresh c hc := Nat.lt_succ_of_lt (h.fresh c hc)
  waiting c hc :=
    evaluable_of_reads (fun k _ => reads_alloc h hc k) (h.waiting c hc)
  present c hc k hk := by
    rw [store_alloc_ne (Nat.ne_of_lt (h.fresh c hc))]
    exact h.present c hc k hk

theorem languageOf_intact
    (h : Kept (boot isDarwin) s) {args : Nat} (hargs : bootCount ≤ args) :
    casterRef ≠ args ∧ defaultsRef ≠ args ∧
      (s.store defaultsRef).get (key "syscall_whitelist") = .nil ∧
      (s.store casterRef).get (languageOf s args) =
        startList (boot isDarwin) (languageOf s args) := by
  unfold bootCount at hargs
  refine ⟨?_, ?_, ?_, ?_⟩
  · unfold casterRef
    omega
  · unfold defaultsRef
    omega
  · rw [h.intact defaultsRef (by decide)]
    exact boot_defaults_whitelist isDarwin
  · exact h.intact casterRef (by decide) _

/-- The language of a call, as the client put it or from start-up. -/
theorem language_callOf (h : Kept (boot isDarwin) s) (args : Nat) :
    (callOf s args).language (boot isDarwin) = languageOf s args := by
  unfold Call.language languageOf
  by_cases hput : (callOf s args).ClientPut (key "language")
  · have hne : (s.store args).get (key "language") ≠ .nil := hput.1
    rw [if_pos hput, if_neg hne]
    rfl
  · rw [if_neg hput]
    by_cases hnil : (s.store args).get (key "language") = .nil
    · rw [if_pos hnil]
      exact (h.intact defaultsRef (by decide) _).symm
    · rw [if_neg hnil]
      -- an earlier call filled the language in
      rcases hf : s.filled args (key "language") with _ | language
      · exact absurd ⟨hnil, hf⟩ hput
      · rw [(h.filled args _ language hf).2.1, fillValue, if_neg (by decide)]

/-- What a call finds missing, it fills with the start-up value. -/
theorem get_judgeSettings_missing
    (h : Kept (boot isDarwin) s) {args : Nat} (hargs : bootCount ≤ args)
    {k : LuaValue} (hk : (s.store args).get k = .nil) :
    (judgeSettings s.store args args).get k =
      fillValue (boot isDarwin) k (languageOf s args) := by
  rcases languageOf_intact h hargs with ⟨hcaster, _, hdef, hlist⟩
  unfold fillValue
  by_cases hw : k = key "syscall_whitelist"
  · subst hw
    rw [if_pos rfl, get_judgeSettings_whitelist hcaster hdef hk, hlist]
  · rw [if_neg hw, get_judgeSettings_default hk hw]
    exact h.intact defaultsRef (by decide) k

/-- What an earlier call filled in has its value from start-up. -/
theorem get_judgeSettings_filled
    (h : Kept (boot isDarwin) s) {args : Nat} {k language : LuaValue}
    (hf : s.filled args k = some language) :
    (judgeSettings s.store args args).get k =
      fillValue (boot isDarwin) k language := by
  rcases h.filled args k language hf with ⟨_, hval, hne⟩
  rw [get_judgeSettings_of_ne_nil hne]
  exact hval

/-- What a call reads from a field, by the value the field has after the
settings. -/
theorem reads_callOf
    (h : Kept (boot isDarwin) s) {args : Nat} {k v : LuaValue}
    (hv : (judgeSettings s.store args args).get k = v) :
    (callOf s args).reads (judgeOn s args).store k = reading s.store k v := by
  change reading (judgeSettings s.store args) k
    ((judgeSettings s.store args args).get k) = _
  rw [hv, reading_judgeSettings h.intact]

/-- A field that an earlier call filled in is right if it reads as what this call
would fill in. -/
theorem gets_filled_iff
    (h : Kept (boot isDarwin) s) {args : Nat} {k language : LuaValue}
    (hf : s.filled args k = some language) :
    (callOf s args).Gets (boot isDarwin) (judgeOn s args).store k ↔
      reading (boot isDarwin) k (fillValue (boot isDarwin) k language) =
        reading (boot isDarwin) k
          (fillValue (boot isDarwin) k (languageOf s args)) := by
  have hnot : ¬ (callOf s args).ClientPut k := by
    rintro ⟨_, hnone⟩
    change s.filled args k = none at hnone
    rw [hf] at hnone
    cases hnone
  unfold Call.Gets
  rw [reads_callOf h (get_judgeSettings_filled h hf),
    reading_fillValue h.intact, Call.due, if_neg hnot, language_callOf h]

/-- A field that no earlier call filled in is right. -/
theorem gets_of_not_filled
    (h : Kept (boot isDarwin) s) {args : Nat} (hargs : bootCount ≤ args)
    {k : LuaValue} (hf : s.filled args k = none) :
    (callOf s args).Gets (boot isDarwin) (judgeOn s args).store k := by
  unfold Call.Gets
  by_cases hk : (s.store args).get k = .nil
  · have hnot : ¬ (callOf s args).ClientPut k := fun hput => hput.1 hk
    rw [reads_callOf h (get_judgeSettings_missing h hargs hk),
      reading_fillValue h.intact, Call.due, if_neg hnot, language_callOf h]
  · have hput : (callOf s args).ClientPut k := ⟨hk, hf⟩
    rw [reads_callOf h (get_judgeSettings_of_ne_nil hk), Call.due, if_pos hput]
    rfl

/-- **A call gets its settings** exactly when a whitelist that an earlier call
filled in reads as the list of the call's language. -/
theorem gets_iff
    (h : Kept (boot isDarwin) s) {args : Nat} (hargs : bootCount ≤ args) :
    (∀ k, (callOf s args).Gets (boot isDarwin) (judgeOn s args).store k) ↔
      ∀ language, s.filled args (key "syscall_whitelist") = some language →
        startReading (boot isDarwin) language =
          startReading (boot isDarwin) (languageOf s args) := by
  constructor
  · intro hgets language hf
    have hw := (gets_filled_iff h hf).mp (hgets (key "syscall_whitelist"))
    simpa only [startReading, fillValue, if_true] using hw
  · intro hlists k
    rcases hf : s.filled args k with _ | language
    · exact gets_of_not_filled h hargs hf
    · apply (gets_filled_iff h hf).mpr
      by_cases hw : k = key "syscall_whitelist"
      · subst hw
        simpa only [startReading, fillValue, if_true] using hlists language hf
      · simp only [fillValue, if_neg hw]

/-- The fields that the callback of a call is going to read are there after the
call. -/
theorem present_judgeSettings
    (h : Kept (boot isDarwin) s) {args : Nat} (hargs : bootCount ≤ args)
    (hstarts : startsCompiler (judgeSettings s.store args args) = true)
    {k : LuaValue} (hk : k ∈ callbackReads (languageOf s args)) :
    (judgeSettings s.store args args).get k ≠ .nil := by
  by_cases hnil : (s.store args).get k = .nil
  · rw [get_judgeSettings_missing h hargs hnil]
    apply fillValue_ne_nil isDarwin _ hk
    rw [startsCompiler, get_judgeSettings_language, Bool.and_eq_true] at hstarts
    exact hstarts.1
  · rw [get_judgeSettings_of_ne_nil hnil]
    exact hnil

/-- A call on the same table fills in nothing that an earlier call still needs,
and on another table it changes nothing that is read. -/
theorem reads_judgeSettings
    (h : Kept (boot isDarwin) s) (args : Nat) {c : Call} (hc : c ∈ s.waiting)
    {k : LuaValue} (hk : k ∈ callbackReads (c.language (boot isDarwin))) :
    (judgeSettings s.store args c.args).get k = (s.store c.args).get k ∧
      c.reads (judgeSettings s.store args) k = c.reads s.store k := by
  have hget : (judgeSettings s.store args c.args).get k =
      (s.store c.args).get k := by
    by_cases hargs : c.args = args
    · rw [← hargs]
      exact get_judgeSettings_of_ne_nil (h.present c hc k hk)
    · rw [judgeSettings_ne hargs]
  refine ⟨hget, ?_⟩
  apply Call.reads_congr c hget
  exact fun ref _ => ipairs_judgeSettings h.intact args ref

/-- The waiting calls after a call. -/
theorem mem_waiting_judgeOn
    {args : Nat} {c : Call} (hc : c ∈ (judgeOn s args).waiting) :
    (c = callOf s args ∧
        startsCompiler (judgeSettings s.store args args) = true) ∨
      c ∈ s.waiting := by
  simp only [judgeOn] at hc
  split at hc
  · rename_i hstarts
    rcases List.mem_cons.mp hc with rfl | hc
    · exact Or.inl ⟨rfl, hstarts⟩
    · exact Or.inr hc
  · exact Or.inr hc

/-- The marks after a call tell what was filled in. -/
theorem filled_judgeOn
    (h : Kept (boot isDarwin) s) {args : Nat} (hargs : bootCount ≤ args)
    {ref : Nat} {k language : LuaValue}
    (hf : (judgeOn s args).filled ref k = some language) :
    bootCount ≤ ref ∧
      (judgeSettings s.store args ref).get k =
        fillValue (boot isDarwin) k language ∧
      (judgeSettings s.store args ref).get k ≠ .nil := by
  by_cases href : ref = args
  · subst href
    simp only [judgeOn, Function.update_self] at hf
    split at hf
    · rename_i hnew
      cases hf
      refine ⟨hargs, ?_, hnew.2⟩
      rw [get_judgeSettings_missing h hargs hnew.1, get_judgeSettings_language]
    · have hold := h.filled ref k language hf
      rw [get_judgeSettings_of_ne_nil hold.2.2]
      exact hold
  · have hf' : s.filled ref k = some language := by
      simpa [judgeOn, Function.update_of_ne href] using hf
    rw [judgeSettings_ne href]
    exact h.filled ref k language hf'

theorem kept_judgeOn
    (h : Kept (boot isDarwin) s) {args : Nat} (hargs : bootCount ≤ args)
    (hnext : args < s.next)
    (hgets : ∀ k, (callOf s args).Gets (boot isDarwin)
      (judgeOn s args).store k) :
    Kept (boot isDarwin) (judgeOn s args) where
  intact ref href k := by
    have hne : ref ≠ args := by omega
    change (judgeSettings s.store args ref).get k = _
    rw [judgeSettings_ne hne]
    exact h.intact ref href k
  closed := closed_judgeOn h.closed args
  filled _ _ _ hf := filled_judgeOn h hargs hf
  fresh := by
    intro c hc
    rcases mem_waiting_judgeOn hc with ⟨rfl, _⟩ | hc
    · exact hnext
    · exact h.fresh c hc
  waiting := by
    intro c hc
    rcases mem_waiting_judgeOn hc with ⟨rfl, _⟩ | hc
    · exact fun k _ => hgets k
    · exact evaluable_of_reads
        (fun k hk => (reads_judgeSettings h args hc hk).2) (h.waiting c hc)
  present := by
    intro c hc k hk
    rcases mem_waiting_judgeOn hc with ⟨rfl, hstarts⟩ | hc
    · rw [language_callOf h] at hk
      exact present_judgeSettings h hargs hstarts hk
    · change (judgeSettings s.store args c.args).get k ≠ .nil
      rw [(reads_judgeSettings h args hc hk).1]
      exact h.present c hc k hk

/-- An assignment keeps the shared tables exactly when it writes what a shared
table holds. -/
theorem sharedIntact_assign_iff
    (h : SharedIntact (boot isDarwin) s) (ref : Nat) (k v : LuaValue)
    (filled : Nat → LuaValue → Option LuaValue) :
    SharedIntact (boot isDarwin)
        { s with
          store := assignTo s.store ref k v
          filled := filled } ↔
      (ref < bootCount → (s.store ref).get k = v) := by
  unfold assignTo
  constructor
  · intro ht href
    have hk := ht ref href k
    simp only [Function.update_self, LuaTable.get_set_self] at hk
    rw [h ref href k, hk]
  · intro hv q hq k'
    by_cases hqr : q = ref
    · subst hqr
      simp only [Function.update_self]
      by_cases hk : k' = k
      · subst hk
        rw [LuaTable.get_set_self, ← hv hq]
        exact h q hq k'
      · rw [LuaTable.get_set_ne _ _ hk]
        exact h q hq k'
    · simp only [Function.update_of_ne hqr]
      exact h q hq k'

theorem kept_assign
    {t : State} {client ref : Nat} {k v : LuaValue}
    (h : Kept (boot isDarwin) s)
    (ht : step s (.assign client ref k v) = some t)
    (hkeeps : KeepsShared (boot isDarwin) s (.assign client ref k v)) :
    Kept (boot isDarwin) t := by
  have hclosed := closed_step h.closed ht
  rcases assign_eq_some ht with ⟨_, _, rfl⟩
  rcases hkeeps with ⟨hshared, hreads⟩
  exact
    { intact := (sharedIntact_assign_iff h.intact ref k v _).mpr hshared
      closed := hclosed
      filled := by
        intro q k' language hf
        by_cases hq : q = ref
        · subst hq
          simp only [assignTo, Function.update_self] at hf ⊢
          by_cases hk : k' = k
          · subst hk
            simp at hf
          · rw [Function.update_of_ne hk] at hf
            rw [LuaTable.get_set_ne _ _ hk]
            exact h.filled q k' language hf
        · simp only [assignTo, Function.update_of_ne hq] at hf ⊢
          exact h.filled q k' language hf
      fresh := h.fresh
      waiting c hc := evaluable_of_reads (hreads c hc) (h.waiting c hc)
      present := by
        intro c hc q hq hnil
        have hsame := hreads c hc q hq
        simp only [Call.reads] at hsame
        rw [hnil] at hsame
        exact h.present c hc q hq (reading_eq_nil hsame.symm) }

/-! ## Steps and runs -/

/-- The law of a step, from the invariant before and after it. -/
theorem settingsLaw_of_kept
    {t : State} {l : Label} (h : Kept (boot isDarwin) s)
    (ht : Kept (boot isDarwin) t)
    (hmade : ∀ c, callMade s l = some c →
      ∀ k, c.Gets (boot isDarwin) t.store k) :
    SettingsLaw (boot isDarwin) s l t where
  shared := ht.intact
  made := hmade
  ended := by
    intro c hc
    cases l with
    | compiled i => exact h.waiting c (List.mem_of_getElem? hc)
    | _ => cases hc
  waiting := ht.waiting

/-- What an assignment must leave alone, read off the law. -/
theorem keepsShared_assign
    {t : State} {client ref : Nat} {k v : LuaValue}
    (h : Kept (boot isDarwin) s)
    (ht : step s (.assign client ref k v) = some t)
    (hlaw : SettingsLaw (boot isDarwin) s (.assign client ref k v) t) :
    KeepsShared (boot isDarwin) s (.assign client ref k v) := by
  rcases assign_eq_some ht with ⟨_, _, rfl⟩
  refine ⟨(sharedIntact_assign_iff h.intact ref k v _).mp hlaw.shared, ?_⟩
  intro c hc q hq
  exact (hlaw.waiting c hc q hq).trans (h.waiting c hc q hq).symm

/-- A step keeps the invariant if it leaves shared what is shared. -/
theorem kept_step
    {t : State} {l : Label} (h : Kept (boot isDarwin) s)
    (ht : step s l = some t) (hkeeps : KeepsShared (boot isDarwin) s l) :
    Kept (boot isDarwin) t ∧
      ∀ c, callMade s l = some c → ∀ k, c.Gets (boot isDarwin) t.store k := by
  have hclosed := closed_step h.closed ht
  cases l with
  | newTable client =>
      cases ht
      have halloc := kept_alloc h
      refine ⟨?_, fun c hc => nomatch hc⟩
      exact { halloc with closed := hclosed }
  | read client ref k =>
      refine ⟨?_, fun c hc => nomatch hc⟩
      rcases read_eq_some ht with rfl | ⟨q, _, rfl⟩
      · exact h
      · exact { h with closed := hclosed }
  | assign client ref k v =>
      exact ⟨kept_assign h ht hkeeps, fun c hc => nomatch hc⟩
  | judge client args =>
      rcases judge_eq_some ht with ⟨hknows, hargs, rfl⟩
      have hgets := (gets_iff h hargs).mpr hkeeps
      refine ⟨kept_judgeOn h hargs (h.closed.knows _ hknows) hgets, ?_⟩
      intro c hc
      cases hc
      exact hgets
  | judgeNil client =>
      cases ht
      have halloc := kept_alloc h
      have hgets := (gets_iff halloc h.closed.boot).mpr (by
        intro language hf
        simp [alloc] at hf)
      refine ⟨kept_judgeOn halloc h.closed.boot (Nat.lt_succ_self _) hgets, ?_⟩
      intro c hc
      cases hc
      exact hgets
  | compiled i =>
      cases compiled_eq_some ht
      refine ⟨?_, fun c hc => nomatch hc⟩
      exact
        { h with
          closed := hclosed
          fresh := fun c hc => h.fresh c (List.mem_of_mem_eraseIdx hc)
          waiting := fun c hc => h.waiting c (List.mem_of_mem_eraseIdx hc)
          present := fun c hc => h.present c (List.mem_of_mem_eraseIdx hc) }

/-- One step obeys the law exactly when it keeps what is shared. -/
theorem settingsLaw_step
    {t : State} {l : Label} (h : Kept (boot isDarwin) s)
    (ht : step s l = some t) :
    SettingsLaw (boot isDarwin) s l t ↔ KeepsShared (boot isDarwin) s l := by
  constructor
  · intro hlaw
    cases l with
    | assign client ref k v => exact keepsShared_assign h ht hlaw
    | judge client args =>
        rcases judge_eq_some ht with ⟨_, hargs, rfl⟩
        exact (gets_iff h hargs).mp (hlaw.made _ rfl)
    | _ => trivial
  · intro hkeeps
    rcases kept_step h ht hkeeps with ⟨hkept, hmade⟩
    exact settingsLaw_of_kept h hkept hmade

end Steps

/-- **Settings do not leak** along a run exactly when no assignment changes a
shared table or what the callback of a waiting call reads, and no call reuses a
whitelist filled in for a language with another list. -/
theorem settings_isolated_iff (isDarwin : Bool) (ls : List Label) :
    EveryStep step (SettingsLaw (boot isDarwin)) (init isDarwin) ls ↔
      EveryStep step (fun s l _ => KeepsShared (boot isDarwin) s l)
        (init isDarwin) ls := by
  apply everyStep_congr (I := Kept (boot isDarwin))
  · exact fun s t l _ hs ht => settingsLaw_step hs ht
  · intro s t l _ hs ht hlaw
    exact (kept_step hs ht ((settingsLaw_step hs ht).mp hlaw)).1
  · exact kept_init isDarwin

/-- An entry of the list that is read. -/
def entryAt (n : Nat) : (Nat → LuaValue) ⊕ LuaValue → Option LuaValue
  | .inl list => some (list n)
  | .inr _ => none

/-- Three ways in which settings leak.  The first client writes a name into the
whitelist that its call left in its table, and the call of the second client
gets that list.  A table keeps the list of C++ when its language becomes Python.
A program is compiled as C++; meanwhile its table becomes one of a Python call,
so it runs with the list of Python. -/
theorem whitelist_leaks :
    ((run step (init false)
          [.newTable 1, .judge 1 9, .read 1 9 (key "syscall_whitelist"),
            .assign 1 2 (.number 1) (key "fork"), .newTable 2,
            .judge 2 10]).map fun s =>
        fieldOf s.store ((s.store 10).get (key "syscall_whitelist"))
          (.number 1)) =
        some (some (key "fork")) ∧
      ¬ EveryStep step (SettingsLaw (boot false)) (init false)
        [.newTable 1, .judge 1 9, .read 1 9 (key "syscall_whitelist"),
          .assign 1 2 (.number 1) (key "fork"), .newTable 2, .judge 2 10] ∧
      ¬ EveryStep step (SettingsLaw (boot false)) (init false)
        [.newTable 1, .judge 1 9, .compiled 0,
          .assign 1 9 (key "language") (.number 2), .judge 1 9] ∧
      ((run step (init false)
          [.newTable 1, .judge 1 9, .assign 1 9 (key "syscall_whitelist") .nil,
            .assign 1 9 (key "language") (.number 2), .judge 1 9]).map fun s =>
        (s.waiting.map Call.args,
          (s.store 9).get (key "syscall_whitelist"))) =
        some ([9], .table (listRef 3)) ∧
      ¬ EveryStep step (SettingsLaw (boot false)) (init false)
        [.newTable 1, .judge 1 9, .assign 1 9 (key "syscall_whitelist") .nil,
          .assign 1 9 (key "language") (.number 2), .judge 1 9,
          .compiled 0] := by
  refine ⟨by decide, ?_, ?_, by decide, ?_⟩
  · intro h
    have hrun :
        ((run step (init false)
            [.newTable 1, .judge 1 9, .read 1 9 (key "syscall_whitelist")]).bind
          fun m => (step m (.assign 1 2 (.number 1) (key "fork"))).map
            fun t => (t.store 2).get (.number 1)) = some (key "fork") := by
      decide
    rcases Option.bind_eq_some_iff.mp hrun with ⟨m, hm, hrest⟩
    rcases Option.map_eq_some_iff.mp hrest with ⟨t, ht, hfork⟩
    have hlaw := everyStep_at [.newTable 1, .judge 1 9,
      .read 1 9 (key "syscall_whitelist")] h hm ht
    have hread := hlaw.shared 2 (by decide) (.number 1)
    rw [hfork] at hread
    revert hread
    decide
  · intro h
    have hrun :
        ((run step (init false)
            [.newTable 1, .judge 1 9, .compiled 0,
              .assign 1 9 (key "language") (.number 2)]).bind
          fun m => (step m (.judge 1 9)).map fun t =>
            (entryAt 3
                ((callOf m 9).reads t.store (key "syscall_whitelist")),
              entryAt 3
                ((callOf m 9).due (boot false) (key "syscall_whitelist")))) =
          some (some (key "mprotect"), some (key "munmap")) := by
      decide
    rcases Option.bind_eq_some_iff.mp hrun with ⟨m, hm, hrest⟩
    rcases Option.map_eq_some_iff.mp hrest with ⟨t, ht, hentries⟩
    have hlaw := everyStep_at [.newTable 1, .judge 1 9, .compiled 0,
      .assign 1 9 (key "language") (.number 2)] h hm ht
    have hgets := hlaw.made _ rfl (key "syscall_whitelist")
    rcases Prod.mk.inj hentries with ⟨hreads, hdue⟩
    rw [hgets, hdue] at hreads
    revert hreads
    decide
  · intro h
    have hrun :
        ((run step (init false)
            [.newTable 1, .judge 1 9, .assign 1 9 (key "syscall_whitelist") .nil,
              .assign 1 9 (key "language") (.number 2), .judge 1 9]).bind
          fun m => (m.waiting[0]?).map fun c =>
            (c.language (boot false),
              entryAt 3 (c.reads m.store (key "syscall_whitelist")),
              entryAt 3 (c.due (boot false) (key "syscall_whitelist")))) =
          some (.number 1, some (key "munmap"), some (key "mprotect")) := by
      decide
    rcases Option.bind_eq_some_iff.mp hrun with ⟨m, hm, hrest⟩
    rcases Option.map_eq_some_iff.mp hrest with ⟨c, hc, hentries⟩
    rcases Prod.mk.inj hentries with ⟨hlang, hentries⟩
    have ht : step m (.compiled 0) =
        some { m with waiting := m.waiting.eraseIdx 0 } := by
      rcases List.getElem?_eq_some_iff.mp hc with ⟨hlt, _⟩
      simp [step, hlt]
    have hlaw := everyStep_at [.newTable 1, .judge 1 9,
      .assign 1 9 (key "syscall_whitelist") .nil,
      .assign 1 9 (key "language") (.number 2), .judge 1 9] h hm ht
    have hgets := hlaw.ended c hc (key "syscall_whitelist") (by
      rw [hlang]
      decide)
    rcases Prod.mk.inj hentries with ⟨hreads, hdue⟩
    rw [hgets, hdue] at hreads
    revert hreads
    decide

end Judge
end Iojxd
