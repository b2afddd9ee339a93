import Iojxd.LuaValue
import Iojxd.SocketBooks

/-!
# Who releases queued writes

`ixfd_commonsock_write` allocates a write context and a copy of the data for
what it queues.  They are live while the entry is in the queue of a context that
has not been freed, and while the completion callback of the entry runs.

When `ixfd_commonsock_write_cb` is done with an entry it releases the copy and
the connection context, and leaves the write context allocated;
`ixfd_commonsock_freectx` releases no entry.  So ownership is kept exactly by
runs in which no queued write is finished and no context with queued writes is
freed.
-/

namespace Iojxd
namespace Socket

open Sock TransitionRun

/-- The entry of call `j` is queued, or its completion callback runs. -/
def Live (s : Layer) (j : Nat) : Prop :=
  (∃ c, s.freedCtx c = false ∧ j ∈ queued s.net c) ∨
    ∃ c, .drainDone c j ∈ s.net.stack

/-- How often a block was released. -/
def frees (s : Layer) (b : Block) : Nat :=
  s.net.log.count (.free b)

/-- Blocks of queued writes are released once, when they are no longer live; a
connection context is released by `ixfd_commonsock_freectx` only, and not while
`ixfd_commonsock_write_cb` runs on it. -/
structure Owned (s : Layer) : Prop where
  writes : ∀ j b, WriteBlock j b → .malloc b ∈ s.net.log →
    Live s j ∧ frees s b = 0 ∨ ¬ Live s j ∧ frees s b = 1
  conns : ∀ c, frees s (.connCtx c) = if s.freedCtx c then 1 else 0
  writeCb : ∀ c, .drain c ∈ s.net.stack → s.freedCtx c = false

/-- Nothing is queued on the context, and `write_cb` does not run on it. -/
def Drained (s : Net) (c : Nat) : Prop :=
  queued s c = [] ∧ .drain c ∉ s.stack

/-- No queued write is finished, and contexts are freed when they are
drained. -/
def KeepsOwners (s : Layer) : Label → Prop
  | .conn l => finishes s.net l = false
  | .freectx c => Drained s.net c
  | .free k =>
      ∀ sock c ctx, s.socks k = some sock →
        defaultConn s sock = some (c, ctx) → Drained s.net c
  | _ => True

/-- What holds as long as ownership is kept. -/
structure Books (s : Layer) : Prop where
  known : Known s.net
  awake : Awake s.net
  mallocLt : ∀ j b, WriteBlock j b → .malloc b ∈ s.net.log → j < s.net.calls
  malloced : ∀ c, ∀ j ∈ queued s.net c, .malloc (.writeCtx j) ∈ s.net.log
  nodup : ∀ c, (queued s.net c).Nodup
  apart : ∀ c d, ∀ j ∈ queued s.net c, j ∈ queued s.net d → c = d
  done : ∀ c d j, .drainDone c j ∈ s.net.stack → j ∉ queued s.net d
  doneLt : ∀ c j, .drainDone c j ∈ s.net.stack → j < s.net.calls
  kept : ∀ j b, WriteBlock j b → .free b ∉ s.net.log
  freed : ∀ c, s.freedCtx c = true → queued s.net c = []

theorem books_init :
    Books .init where
  known := known_init
  awake := awake_init
  mallocLt := by simp [Layer.init, Net.init]
  malloced := by simp [Layer.init, Net.init, queued, queue]
  nodup := by simp [Layer.init, Net.init, queued, queue]
  apart := by simp [Layer.init, Net.init, queued, queue]
  done := by simp [Layer.init, Net.init]
  doneLt := by simp [Layer.init, Net.init]
  kept := by simp [Layer.init, Net.init]
  freed := by simp [Layer.init]

theorem owned_init :
    Owned .init where
  writes := by simp [Layer.init, Net.init]
  conns := by simp [Layer.init, Net.init, frees]
  writeCb := by simp [Layer.init, Net.init]

namespace Books

variable {s : Layer}

theorem frees_eq_zero
    (h : Books s) {j : Nat} {b : Block} (hb : WriteBlock j b) :
    frees s b = 0 :=
  List.count_eq_zero.mpr (h.kept j b hb)

/-- While nothing was released, owned blocks are live. -/
theorem live
    (h : Books s) (ho : Owned s) {j : Nat} {b : Block}
    (hb : WriteBlock j b) (hm : .malloc b ∈ s.net.log) :
    Live s j := by
  rcases ho.writes j b hb hm with ⟨hlive, _⟩ | ⟨_, hone⟩
  · exact hlive
  · rw [h.frees_eq_zero hb] at hone
    cases hone

theorem call_lt
    (h : Books s) {c j : Nat} (hj : j ∈ queued s.net c) :
    j < s.net.calls :=
  h.mallocLt j _ (Or.inl rfl) (h.malloced c j hj)

/-- `write_cb` is not entered on a freed context: its queue is empty, so its
write watcher is stopped. -/
theorem not_freed
    (h : Books s) (ho : Owned s) {c : Nat} {ctx : IxfdConnCtx}
    (hc : s.net.conns c = some ctx) (hactive : ctx.eventWrite.active = true) :
    s.freedCtx c = false := by
  by_contra hne
  have hfreed : s.freedCtx c = true := by simpa using hne
  have hawake := h.awake c ctx hc
  rcases hawake.drained (hawake.launched ▸ hactive) with hq | hdrain
  · apply hq
    rw [← queue_of_conns hc]
    exact List.map_eq_nil_iff.mp (h.freed c hfreed)
  · exact hne (ho.writeCb c hdrain)

end Books

/-! ## Ownership after each kind of step -/

section Owners

variable {s t : Layer}

theorem frees_append
    {es : List Effect} (hlog : t.net.log = s.net.log ++ es) (b : Block) :
    frees t b = frees s b + es.count (.free b) := by
  unfold frees
  rw [hlog, List.count_append]

/-- Effects without releases. -/
theorem frees_same
    {es : List Effect} (hlog : t.net.log = s.net.log ++ es)
    (hes : ∀ b, .free b ∉ es) (b : Block) :
    frees t b = frees s b := by
  rw [frees_append hlog, List.count_eq_zero.mpr (hes b), Nat.add_zero]

theorem free_notMem_untracked
    {es : List Effect} (hes : ∀ x ∈ es, Effect.tracked x = false)
    (b : Block) :
    .free b ∉ es := by
  intro hmem
  have hfalse := hes _ hmem
  cases hfalse

theorem malloc_mem_untracked
    {es : List Effect} (hlog : t.net.log = s.net.log ++ es)
    (hes : ∀ x ∈ es, Effect.tracked x = false)
    {j : Nat} {b : Block} (hb : WriteBlock j b) :
    .malloc b ∈ t.net.log ↔ .malloc b ∈ s.net.log := by
  rw [hlog, List.mem_append]
  apply or_iff_left
  intro hmem
  have hfalse := hes _ hmem
  rw [tracked_malloc hb] at hfalse
  cases hfalse

theorem kept_append
    {es : List Effect} (hlog : t.net.log = s.net.log ++ es)
    (hes : ∀ b, .free b ∉ es) (hs : Books s) :
    ∀ j b, WriteBlock j b → .free b ∉ t.net.log := by
  intro j b hb
  rw [hlog, List.mem_append]
  rintro (hold | hnew)
  · exact hs.kept j b hb hold
  · exact hes b hnew

/-- A step after which every allocated entry is live, and which releases
nothing, keeps ownership. -/
theorem owned_of_live
    {es : List Effect} (hlog : t.net.log = s.net.log ++ es)
    (hes : ∀ b, .free b ∉ es) (hfreed : t.freedCtx = s.freedCtx)
    (hs : Books s) (ho : Owned s)
    (hlive : ∀ j b, WriteBlock j b → .malloc b ∈ t.net.log → Live t j)
    (hdrain : ∀ c, .drain c ∈ t.net.stack → s.freedCtx c = false) :
    Owned t where
  writes j b hb hm := by
    rw [frees_same hlog hes, hs.frees_eq_zero hb]
    exact Or.inl ⟨hlive j b hb hm, rfl⟩
  conns c := by
    rw [frees_same hlog hes, hfreed]
    exact ho.conns c
  writeCb c hc := by
    rw [hfreed]
    exact hdrain c hc

/-- Where `write_cb` may be after a step that does not leave it. -/
theorem drain_notFreed
    (hs : Books s) (ho : Owned s) {c : Nat}
    (hc : .drain c ∈ s.net.stack ∨ ∃ ctx, s.net.conns c = some ctx ∧
      ctx.eventWrite.active = true) :
    s.freedCtx c = false := by
  rcases hc with hold | ⟨ctx, hctx, hactive⟩
  · exact ho.writeCb c hold
  · exact hs.not_freed ho hctx hactive

theorem owned_same
    (h : SameBooks s.net t.net) (hfreed : t.freedCtx = s.freedCtx)
    (hs : Books s) (ho : Owned s) :
    Owned t := by
  rcases h.log with ⟨es, hlog, hes⟩
  apply owned_of_live hlog (free_notMem_untracked hes) hfreed hs ho
  · intro j b hb hm
    have hlive := hs.live ho hb ((malloc_mem_untracked hlog hes hb).mp hm)
    unfold Live at hlive ⊢
    simpa only [hfreed, h.queued, h.done] using hlive
  · exact fun c hc => drain_notFreed hs ho (h.drain c hc)

theorem books_same
    (h : SameBooks s.net t.net) (hfreed : t.freedCtx = s.freedCtx)
    (hknown : Known t.net) (hawake : Awake t.net) (hs : Books s) :
    Books t := by
  rcases h.log with ⟨es, hlog, hes⟩
  constructor
  case known => exact hknown
  case awake => exact hawake
  case mallocLt =>
      intro j b hb hm
      have hold := (malloc_mem_untracked hlog hes hb).mp hm
      exact lt_of_lt_of_le (hs.mallocLt j b hb hold) h.calls
  case malloced =>
      intro c j hj
      rw [h.queued] at hj
      rw [hlog]
      exact List.mem_append_left _ (hs.malloced c j hj)
  case nodup =>
      intro c
      rw [h.queued]
      exact hs.nodup c
  case apart =>
      intro c d j hc hd
      rw [h.queued] at hc hd
      exact hs.apart c d j hc hd
  case done =>
      intro c d j hj
      rw [h.queued]
      exact hs.done c d j ((h.done c j).mp hj)
  case doneLt =>
      intro c j hj
      exact lt_of_lt_of_le (hs.doneLt c j ((h.done c j).mp hj)) h.calls
  case kept => exact kept_append hlog (free_notMem_untracked hes) hs
  case freed =>
      intro c hc
      rw [hfreed] at hc
      rw [h.queued]
      exact hs.freed c hc

/-- What `ixfd_commonsock_write` allocates is live. -/
theorem owned_queues
    {c : Nat} (h : Queues s.net t.net c) (hfreedCtx : t.freedCtx = s.freedCtx)
    (hfreed : s.freedCtx c = false) (hs : Books s) (ho : Owned s) :
    Owned t := by
  rcases h.log with ⟨es, hlog, hfree, hmalloc⟩
  apply owned_of_live hlog hfree hfreedCtx hs ho
  · intro j b hb hm
    rw [hlog, List.mem_append] at hm
    rcases hm with hold | hnew
    · rcases hs.live ho hb hold with ⟨d, hd, hj⟩ | ⟨d, hd⟩
      · refine Or.inl ⟨d, hfreedCtx ▸ hd, ?_⟩
        rw [h.queued]
        exact List.mem_append_left _ hj
      · exact Or.inr ⟨d, h.stack ▸ hd⟩
    · have hj : j = s.net.calls := by
        have hcalls := (hmalloc b).mp hnew
        rcases hb with rfl | rfl <;> rcases hcalls with h | h <;> cases h <;> rfl
      refine Or.inl ⟨c, hfreedCtx ▸ hfreed, ?_⟩
      rw [h.queued, if_pos rfl, hj]
      exact List.mem_append_right _ (List.mem_singleton.mpr rfl)
  · intro d hd
    exact ho.writeCb d (h.stack ▸ hd)

theorem books_queues
    {c : Nat} (h : Queues s.net t.net c) (hfreedCtx : t.freedCtx = s.freedCtx)
    (hfreed : s.freedCtx c = false)
    (hknown : Known t.net) (hawake : Awake t.net) (hs : Books s) :
    Books t := by
  rcases h.log with ⟨es, hlog, hfree, hmalloc⟩
  -- the new call has a number that no other entry has
  have hmem : ∀ d j, j ∈ queued t.net d →
      j ∈ queued s.net d ∨ d = c ∧ j = s.net.calls := by
    intro d j hj
    rw [h.queued] at hj
    rcases List.mem_append.mp hj with hj | hj
    · exact Or.inl hj
    · split at hj
      · rename_i hdc
        exact Or.inr ⟨hdc, List.mem_singleton.mp hj⟩
      · cases hj
  have hnew : ∀ d, s.net.calls ∉ queued s.net d :=
    fun d hd => lt_irrefl _ (hs.call_lt hd)
  constructor
  case known => exact hknown
  case awake => exact hawake
  case mallocLt =>
      intro j b hb hm
      rw [h.calls]
      rw [hlog, List.mem_append] at hm
      rcases hm with hold | hnew
      · exact Nat.lt_succ_of_lt (hs.mallocLt j b hb hold)
      · have hcalls := (hmalloc b).mp hnew
        rcases hb with rfl | rfl <;> rcases hcalls with h | h <;> cases h <;>
          exact Nat.lt_succ_self _
  case malloced =>
      intro d j hj
      rw [hlog, List.mem_append]
      rcases hmem d j hj with hold | ⟨_, rfl⟩
      · exact Or.inl (hs.malloced d j hold)
      · exact Or.inr ((hmalloc _).mpr (Or.inl rfl))
  case nodup =>
      intro d
      rw [h.queued]
      split
      · apply List.nodup_append.mpr
        refine ⟨hs.nodup d, List.nodup_singleton _, ?_⟩
        rintro j hj k hk rfl
        rw [List.mem_singleton] at hk
        exact hnew d (hk ▸ hj)
      · rw [List.append_nil]
        exact hs.nodup d
  case apart =>
      intro d e j hd he
      rcases hmem d j hd with hd | ⟨rfl, rfl⟩
      · rcases hmem e j he with he | ⟨rfl, rfl⟩
        · exact hs.apart d e j hd he
        · exact absurd hd (hnew d)
      · rcases hmem e _ he with he | ⟨rfl, _⟩
        · exact absurd he (hnew e)
        · rfl
  case done =>
      intro d e j hj he
      rw [h.stack] at hj
      rcases hmem e j he with he | ⟨_, rfl⟩
      · exact hs.done d e j hj he
      · exact lt_irrefl _ (hs.doneLt d _ hj)
  case doneLt =>
      intro d j hj
      rw [h.calls]
      exact Nat.lt_succ_of_lt (hs.doneLt d j (h.stack ▸ hj))
  case kept => exact kept_append hlog hfree hs
  case freed =>
      intro d hd
      rw [hfreedCtx] at hd
      have hdc : d ≠ c := by
        rintro rfl
        rw [hfreed] at hd
        cases hd
      rw [h.queued, if_neg hdc, List.append_nil]
      exact hs.freed d hd

/-- A completed entry is live while its callback runs. -/
theorem owned_completes
    {c j : Nat} (h : Completes s.net t.net c j)
    (hfreed : t.freedCtx = s.freedCtx) (hs : Books s) (ho : Owned s) :
    Owned t := by
  rcases h.log with ⟨es, hlog, hes⟩
  rcases h.front with ⟨js, hfront, hqueued⟩
  apply owned_of_live hlog (free_notMem_untracked hes) hfreed hs ho
  · intro i b hb hm
    have hold := hs.live ho hb ((malloc_mem_untracked hlog hes hb).mp hm)
    by_cases hij : i = j
    · refine Or.inr ⟨c, ?_⟩
      rw [h.stack, hij]
      exact List.mem_cons_self
    · rcases hold with ⟨d, hd, hi⟩ | ⟨d, hd⟩
      · refine Or.inl ⟨d, hfreed ▸ hd, ?_⟩
        rw [hqueued]
        split
        · rename_i hdc
          rw [hdc, hfront] at hi
          exact (List.mem_cons.mp hi).resolve_left hij
        · exact hi
      · refine Or.inr ⟨d, ?_⟩
        rw [h.stack]
        exact List.mem_cons_of_mem _ hd
  · intro d hd
    rw [h.stack] at hd
    rcases List.mem_cons.mp hd with heq | hd
    · cases heq
    · exact ho.writeCb d hd

theorem books_completes
    {c j : Nat} (h : Completes s.net t.net c j)
    (hfreed : t.freedCtx = s.freedCtx)
    (hknown : Known t.net) (hawake : Awake t.net) (hs : Books s) :
    Books t := by
  rcases h.log with ⟨es, hlog, hes⟩
  rcases h.front with ⟨js, hfront, hqueued⟩
  have hsub : ∀ d i, i ∈ queued t.net d → i ∈ queued s.net d := by
    intro d i hi
    rw [hqueued] at hi
    split at hi
    · rename_i hdc
      rw [hdc, hfront]
      exact List.mem_cons_of_mem _ hi
    · exact hi
  have hj : j ∈ queued s.net c := by
    rw [hfront]
    exact List.mem_cons_self
  have hnodup := hs.nodup c
  rw [hfront] at hnodup
  constructor
  case known => exact hknown
  case awake => exact hawake
  case mallocLt =>
      intro i b hb hm
      rw [h.calls]
      exact hs.mallocLt i b hb ((malloc_mem_untracked hlog hes hb).mp hm)
  case malloced =>
      intro d i hi
      rw [hlog]
      exact List.mem_append_left _ (hs.malloced d i (hsub d i hi))
  case nodup =>
      intro d
      rw [hqueued]
      split
      · exact (List.nodup_cons.mp hnodup).2
      · exact hs.nodup d
  case apart =>
      intro d e i hd he
      exact hs.apart d e i (hsub d i hd) (hsub e i he)
  case done =>
      intro d e i hi he
      rw [h.stack] at hi
      rcases List.mem_cons.mp hi with heq | hi
      · -- the completed entry has left the only queue it was in
        cases heq
        have hec := hs.apart e c j (hsub e j he) hj
        rw [hqueued, if_pos hec] at he
        exact (List.nodup_cons.mp hnodup).1 he
      · exact hs.done d e i hi (hsub e i he)
  case doneLt =>
      intro d i hi
      rw [h.calls]
      rw [h.stack] at hi
      rcases List.mem_cons.mp hi with heq | hi
      · cases heq
        exact hs.call_lt hj
      · exact hs.doneLt d i hi
  case kept => exact kept_append hlog (free_notMem_untracked hes) hs
  case freed =>
      intro d hd
      rw [hfreed] at hd
      have hnil := hs.freed d hd
      apply List.eq_nil_iff_forall_not_mem.mpr
      intro i hi
      have hmem := hsub d i hi
      rw [hnil] at hmem
      cases hmem

/-- `write_cb` releases the connection context when it finishes an entry. -/
theorem not_owned_finishes
    {c : Nat} {es : List Effect} (hlog : t.net.log = s.net.log ++ es)
    (hfree : es.count (.free (.connCtx c)) = 1)
    (hfreed : t.freedCtx = s.freedCtx) (ho : Owned s) :
    ¬ Owned t := by
  intro ht
  have hold := ho.conns c
  have hnew := ht.conns c
  rw [frees_append hlog, hfree, hfreed, hold] at hnew
  split at hnew <;> cases hnew

/-- Freeing a context keeps ownership exactly if it is drained. -/
theorem owned_freectx_iff
    {c : Nat} (ctx : IxfdConnCtx) (hfreed : s.freedCtx c = false)
    (hs : Books s) (ho : Owned s) :
    Owned (ixfdCommonsockFreectx s c ctx) ↔ Drained s.net c := by
  have hlog : (ixfdCommonsockFreectx s c ctx).net.log =
      s.net.log ++ [.free (.connCtx c)] := rfl
  have hfrees := frees_append (s := s) hlog
  have hctx : ∀ d, (ixfdCommonsockFreectx s c ctx).freedCtx d =
      if d = c then true else s.freedCtx d :=
    fun d => Function.update_apply ..
  have hqueued : ∀ d, queued (ixfdCommonsockFreectx s c ctx).net d =
      queued s.net d := queued_congr rfl
  have hwrite : ∀ j b, WriteBlock j b →
      frees (ixfdCommonsockFreectx s c ctx) b = 0 := by
    intro j b hb
    rw [hfrees, hs.frees_eq_zero hb]
    rcases hb with rfl | rfl <;> simp
  have hmalloc : ∀ b, .malloc b ∈ (ixfdCommonsockFreectx s c ctx).net.log ↔
      .malloc b ∈ s.net.log := by
    intro b
    rw [hlog]
    simp
  constructor
  · intro ht
    constructor
    · -- a queued entry would be dropped without being released
      apply List.eq_nil_iff_forall_not_mem.mpr
      intro j hj
      have hm := (hmalloc _).mpr (hs.malloced c j hj)
      rcases ht.writes j _ (Or.inl rfl) hm with ⟨hlive, _⟩ | ⟨_, hone⟩
      · rcases hlive with ⟨d, hd, hjd⟩ | ⟨d, hd⟩
        · rw [hqueued] at hjd
          rw [hctx, if_pos (hs.apart d c j hjd hj)] at hd
          cases hd
        · exact hs.done d c j hd hj
      · rw [hwrite j _ (Or.inl rfl)] at hone
        cases hone
    · intro hdrain
      have hno := ht.writeCb c hdrain
      rw [hctx, if_pos rfl] at hno
      cases hno
  · rintro ⟨hnil, hdrain⟩
    constructor
    · intro j b hb hm
      rw [hwrite j b hb]
      refine Or.inl ⟨?_, rfl⟩
      rcases hs.live ho hb ((hmalloc b).mp hm) with ⟨d, hd, hj⟩ | hdone
      · have hdc : d ≠ c := by
          rintro rfl
          rw [hnil] at hj
          cases hj
        refine Or.inl ⟨d, ?_, hj⟩
        rw [hctx, if_neg hdc]
        exact hd
      · exact Or.inr hdone
    · intro d
      rw [hfrees, ho.conns, hctx]
      by_cases hdc : d = c
      · subst hdc
        simp [hfreed]
      · simp [hdc, Ne.symm hdc]
    · intro d hd
      have hdc : d ≠ c := by
        rintro rfl
        exact hdrain hd
      rw [hctx, if_neg hdc]
      exact ho.writeCb d hd

theorem books_freectx
    {c : Nat} {ctx : IxfdConnCtx} (hs : Books s) (hnil : queued s.net c = []) :
    Books (ixfdCommonsockFreectx s c ctx) where
  known := known_congr hs.known rfl rfl
  awake := hs.awake.congr rfl fun _ hd => hd
  mallocLt j b hb hm := by
    apply hs.mallocLt j b hb
    simpa [ixfdCommonsockFreectx] using hm
  malloced d j hj := List.mem_append_left _ (hs.malloced d j hj)
  nodup := hs.nodup
  apart := hs.apart
  done := hs.done
  doneLt := hs.doneLt
  kept j b hb := by
    have hold := hs.kept j b hb
    rcases hb with rfl | rfl <;> simpa [ixfdCommonsockFreectx] using hold
  freed d hd := by
    by_cases hdc : d = c
    · rw [hdc]
      exact hnil
    · apply hs.freed d
      change Function.update s.freedCtx c true d = true at hd
      rwa [Function.update_of_ne hdc] at hd

end Owners

/-! ## Steps of the socket layer -/

section Steps

variable {s t : Layer}

theorem owned_conn_iff
    {l : Sock.Label} {net : Net} (hs : Books s) (ho : Owned s)
    (hok : connEnabled s l = true)
    (hnet : Sock.step (connSock s l) s.net l = some net) :
    (Owned (s.withNet net) ↔ finishes s.net l = false) ∧
      (Owned (s.withNet net) → Books (s.withNet net)) := by
  have hl : ∀ fd mallocOk, l ≠ .accept fd mallocOk := by
    rintro fd mallocOk rfl
    cases hok
  have hknown : Known net := known_step hs.known hnet
  have hawake : Awake net := awake_step hs.awake hnet
  cases bookMove_of_step hl hnet with
  | same hno h =>
      have howned : Owned (s.withNet net) := owned_same h rfl hs ho
      exact ⟨iff_of_true howned hno,
        fun _ => books_same h rfl hknown hawake hs⟩
  | queues hno hl' h =>
      subst hl'
      have hfreed : s.freedCtx _ = false := Bool.not_eq_true' _ |>.mp hok
      have howned : Owned (s.withNet net) := owned_queues h rfl hfreed hs ho
      exact ⟨iff_of_true howned hno,
        fun _ => books_queues h rfl hfreed hknown hawake hs⟩
  | completes hno h =>
      have howned : Owned (s.withNet net) := owned_completes h rfl hs ho
      exact ⟨iff_of_true howned hno,
        fun _ => books_completes h rfl hknown hawake hs⟩
  | finishes hyes hlog hfree =>
      have hnot : ¬ Owned (s.withNet net) :=
        not_owned_finishes hlog hfree rfl ho
      exact ⟨iff_of_false hnot (by simp [hyes]), fun h => absurd h hnot⟩

/-- The flags of sockets and the other releases do not matter. -/
theorem owned_congr
    {m : Layer} (hnet : t.net = m.net) (hfreed : t.freedCtx = m.freedCtx) :
    (Owned t ↔ Owned m) ∧ (Books m → Books t) := by
  constructor
  · constructor
    · intro h
      have hm : Owned m := by
        refine ⟨?_, ?_, ?_⟩
        · simpa only [Live, frees, hnet, hfreed] using h.writes
        · simpa only [frees, hnet, hfreed] using h.conns
        · simpa only [hnet, hfreed] using h.writeCb
      exact hm
    · intro h
      refine ⟨?_, ?_, ?_⟩
      · simpa only [Live, frees, hnet, hfreed] using h.writes
      · simpa only [frees, hnet, hfreed] using h.conns
      · simpa only [hnet, hfreed] using h.writeCb
  · intro h
    refine ⟨hnet ▸ h.known, hnet ▸ h.awake, hnet ▸ h.mallocLt,
      hnet ▸ h.malloced, hnet ▸ h.nodup, hnet ▸ h.apart, hnet ▸ h.done,
      hnet ▸ h.doneLt, hnet ▸ h.kept, ?_⟩
    rw [hnet, hfreed]
    exact h.freed

theorem owned_free_iff
    (k : Nat) (sock : IxfdSockObj) (hs : Books s) (ho : Owned s) :
    (Owned (ixfdCommonsockFree s k sock) ↔
        ∀ c ctx, defaultConn s sock = some (c, ctx) → Drained s.net c) ∧
      (Owned (ixfdCommonsockFree s k sock) →
        Books (ixfdCommonsockFree s k sock)) := by
  have hcongr := owned_congr (t := ixfdCommonsockFree s k sock)
    (m := freeDefault s sock) rfl rfl
  rw [hcongr.1]
  rcases freeDefault_cases s sock with ⟨c, ctx, hdef, heq⟩ | ⟨hdef, heq⟩
  · have hfreed := (defaultConn_eq_some hdef).2.1
    have hiff := owned_freectx_iff ctx hfreed hs ho
    rw [heq] at hcongr ⊢
    refine ⟨?_, fun h => hcongr.2 (books_freectx hs (hiff.mp h).1)⟩
    rw [hiff]
    simp [hdef]
  · rw [heq] at hcongr ⊢
    refine ⟨?_, fun _ => hcongr.2 hs⟩
    simp [hdef, ho]

/-- One step decides whether ownership is kept. -/
theorem owned_step_iff
    {l : Label} (hs : Books s) (ho : Owned s) (ht : step s l = some t) :
    (Owned t ↔ KeepsOwners s l) ∧ (Owned t → Books t) := by
  by_cases hconn : ∃ l', l = .conn l'
  · obtain ⟨l', rfl⟩ := hconn
    cases move_of_step ht with
    | conn hok hnet => exact owned_conn_iff hs ho hok hnet
  by_cases hctx : ∃ c, l = .freectx c
  · obtain ⟨c, rfl⟩ := hctx
    cases move_of_step ht with
    | @freectx _ ctx hc hfreed =>
        have hiff := owned_freectx_iff ctx hfreed hs ho
        exact ⟨hiff, fun h => books_freectx hs (hiff.mp h).1⟩
  by_cases hfree : ∃ k, l = .free k
  · obtain ⟨k, rfl⟩ := hfree
    cases move_of_step ht with
    | @free _ sock hk =>
        have hiff := owned_free_iff k sock hs ho
        refine ⟨hiff.1.trans ?_, hiff.2⟩
        constructor
        · intro h x c ctx hx hdef
          rw [hk] at hx
          cases hx
          exact h c ctx hdef
        · intro h c ctx hdef
          exact h sock c ctx hk hdef
  · have hsame := sameBooks_of_step hs.known ht
      (fun l' h => hconn ⟨l', h⟩) (fun c h => hctx ⟨c, h⟩)
      (fun k h => hfree ⟨k, h⟩)
    have htrue : KeepsOwners s l := by
      cases l with
      | conn l' => exact absurd ⟨l', rfl⟩ hconn
      | freectx c => exact absurd ⟨c, rfl⟩ hctx
      | free k => exact absurd ⟨k, rfl⟩ hfree
      | _ => trivial
    exact ⟨iff_of_true (owned_same hsame.1 hsame.2 hs ho) htrue,
      fun _ => books_same hsame.1 hsame.2 (known_of_step hs.known ht)
        (awake_of_step hs.awake ht) hs⟩

end Steps

/-- Every block that `ixfd_commonsock_write` allocates is released once by its
owner, and every connection context by `ixfd_commonsock_freectx`, exactly if
`write_cb` finishes no entry and `ixfd_commonsock_freectx` drops none. -/
theorem writes_owned_iff (ls : List Label) :
    EveryState step Owned .init ls ↔
      EveryStep step (fun s l _ => KeepsOwners s l) .init ls := by
  rw [everyState_iff_everyStep owned_init]
  apply everyStep_congr (I := fun s => Books s ∧ Owned s)
  · intro s t l _ hs ht
    exact (owned_step_iff hs.1 hs.2 ht).1
  · intro s t l _ hs ht ho
    exact ⟨(owned_step_iff hs.1 hs.2 ht).2 ho, ho⟩
  · exact ⟨books_init, owned_init⟩

/-- A queued write is completed: the connection context is released, and the
write context stays allocated. -/
theorem completed_write_frees_connection :
    let ls : List Label :=
      [.create, .createnbind 0 (some 3) true, .listen 0, .accept 0 5 true,
        .conn (.write 1 ⟨bytes "ab", by decide⟩ none 0 1),
        .conn (.writeReady 1), .conn (.drainWrite 1)]
    (run step .init ls).map
        (fun t => (frees t (.connCtx 1), frees t (.writeCtx 0),
          t.freedCtx 1, t.net.stack)) =
        some (1, 0, false, [.drain 1]) ∧
      ¬ EveryState step Owned .init ls := by
  refine refuted_of_run (by decide) ?_
  intro t hobs howned
  simp only [Prod.mk.injEq] at hobs
  have hconns := howned.conns 1
  rw [hobs.1, hobs.2.2.1] at hconns
  cases hconns

end Socket
end Iojxd
