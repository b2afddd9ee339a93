import Iojxd.ServedDelivery
import Iojxd.SockWakeUp

/-!
# Replies that are taken whole

As long as the kernel takes every reply whole, `write_cb` never runs: no write
watcher is started, no reply waits, nothing is freed while it is used, and the
clients receive their dialogues without waiting for their replies.

Once a reply was queued and its write watcher fires, `write_cb` does not return to
the loop before the reply is complete, and with its completion callback the run is
over.  So a daemon serves its clients exactly as long as no write watcher fires.
-/

namespace Iojxd

open TransitionRun

namespace Sock

/-- Nothing waits, nothing was freed and `write_cb` does not run. -/
structure Clean (n : Net) : Prop where
  awake : Awake n
  known : Known n
  queue : ∀ c, queue n c = []
  frees : ∀ b, .free b ∉ n.log
  idle : ∀ c, .drain c ∉ n.stack
  undone : ∀ c j, .drainDone c j ∉ n.stack

/-- A direct write takes everything. -/
def TakesWhole : Label → Prop
  | .write _ data _ _ ret => data.bytes.length ≤ toSizeT ret
  | _ => True

theorem clean_init :
    Clean .init where
  awake := awake_init
  known := known_init
  queue _ := rfl
  frees := by simp [Net.init]
  idle := by simp [Net.init]
  undone := by simp [Net.init]

namespace Clean

variable {n : Net} {c : Nat} {ctx : IxfdConnCtx}

theorem bufWrite (h : Clean n) (hc : n.conns c = some ctx) :
    ctx.bufWrite = [] := by
  rw [← queue_of_conns hc]
  exact h.queue c

/-- No write watcher is started. -/
theorem unwatched (h : Clean n) (hc : n.conns c = some ctx) :
    ctx.eventWrite.active = false := by
  have hctx := h.awake c ctx hc
  cases hactive : ctx.eventWrite.active with
  | false => rfl
  | true =>
      rcases hctx.drained (hctx.launched ▸ hactive) with hne | hdrain
      · exact absurd (h.bufWrite hc) hne
      · exact absurd hdrain (h.idle c)

end Clean

section Steps

variable {sock : IxfdSock} {n m : Net} {l : Label}

/-- What a step adds to the log and to the stack, if `write_cb` does not run. -/
structure Adds (n m : Net) (es : List Effect) (frames : List Frame) : Prop where
  log : m.log = n.log ++ es
  stack : ∀ f ∈ m.stack, f ∈ n.stack ∨ f ∈ frames
  frees : ∀ b, .free b ∉ es
  idle : ∀ c, .drain c ∉ frames
  undone : ∀ c j, .drainDone c j ∉ frames

theorem Clean.adds
    {es : List Effect} {frames : List Frame} (h : Clean n)
    (ht : step sock n l = some m) (hadds : Adds n m es frames)
    (hqueue : ∀ c, Sock.queue m c = []) :
    Clean m where
  awake := awake_step h.awake ht
  known := known_step h.known ht
  queue := hqueue
  frees := by
    intro b hb
    rw [hadds.log] at hb
    rcases List.mem_append.mp hb with hb | hb
    · exact h.frees b hb
    · exact hadds.frees b hb
  idle := by
    intro c hc
    rcases hadds.stack _ hc with hc | hc
    · exact h.idle c hc
    · exact hadds.idle c hc
  undone := by
    intro c j hc
    rcases hadds.stack _ hc with hc | hc
    · exact h.undone c j hc
    · exact hadds.undone c j hc

theorem Adds.same
    {es : List Effect} (hlog : m.log = n.log ++ es)
    (hstack : ∀ f ∈ m.stack, f ∈ n.stack) (hfrees : ∀ b, .free b ∉ es) :
    Adds n m es [] where
  log := hlog
  stack f hf := Or.inl (hstack f hf)
  frees := hfrees
  idle := by simp
  undone := by simp

theorem Adds.push
    {es : List Effect} {frame : Frame} (hlog : m.log = n.log ++ es)
    (hstack : m.stack = frame :: n.stack) (hfrees : ∀ b, .free b ∉ es)
    (hidle : ∀ c, frame ≠ .drain c) (hundone : ∀ c j, frame ≠ .drainDone c j) :
    Adds n m es [frame] where
  log := hlog
  stack f hf := by
    rw [hstack, List.mem_cons] at hf
    rw [List.mem_singleton]
    exact hf.symm
  frees := hfrees
  idle c hc := hidle c (List.mem_singleton.mp hc).symm
  undone c j hc := hundone c j (List.mem_singleton.mp hc).symm

theorem adds_write
    {c : Nat} {ctx : IxfdConnCtx} {data : Buffer} {cb : Option Nat}
    {args : Nat} {ret : Int} (h : data.bytes.length ≤ toSizeT ret) :
    ∃ es frames, Adds n (ixfdCommonsockWrite n c ctx data cb args ret) es
      frames := by
  rw [write_complete _ _ _ _ _ _ (not_lt.mpr h)]
  cases cb with
  | none =>
      refine ⟨_, _, Adds.same (List.append_assoc ..) (fun f hf => hf) ?_⟩
      simp
  | some f =>
      refine ⟨_, _, Adds.push (List.append_assoc ..) rfl ?_ ?_ ?_⟩
      · simp
      · simp
      · simp

theorem adds_close (c : Nat) (ctx : IxfdConnCtx) :
    Adds n (ixfdCommonsockClose n c ctx) [.close c ctx.fd] [] :=
  Adds.same rfl (fun _ hf => hf) (by simp)

theorem adds_read
    (c : Nat) (ctx : IxfdConnCtx) (ret : ReadRet) :
    ∃ es frames, Adds n (ixfdCommonsockRead n c ctx ret) es frames := by
  unfold ixfdCommonsockRead
  split
  · refine ⟨_, _, Adds.same (List.append_assoc ..) (fun f hf => hf) ?_⟩
    simp
  · refine ⟨_, _, Adds.same rfl (fun f hf => hf) ?_⟩
    simp

theorem adds_readCb
    (sock : IxfdSock) (c : Nat) (ctx : IxfdConnCtx) (ret : ReadRet) :
    ∃ es frames, Adds n (ixfdCommonsockReadCb sock n c ctx ret) es frames := by
  unfold ixfdCommonsockReadCb
  split
  · refine ⟨[], _, Adds.push (List.append_nil _).symm rfl ?_ ?_ ?_⟩ <;> simp
  · split
    · exact ⟨_, _, Adds.same rfl (fun f hf => hf) (by simp)⟩
    · split
      · refine ⟨_, _, Adds.push rfl rfl ?_ ?_ ?_⟩ <;> simp
      · refine ⟨_, _, Adds.same (List.append_assoc ..) (fun f hf => hf) ?_⟩
        simp
    · split
      · refine ⟨_, _, Adds.push (List.append_assoc ..) rfl ?_ ?_ ?_⟩ <;> simp
      · exact ⟨_, _, Adds.same rfl (fun f hf => hf) (by simp)⟩

theorem adds_acceptCb (sock : IxfdSock) (fd : Int) (mallocOk : Bool) :
    ∃ es frames, Adds n (ixfdCommonsockAcceptCb sock n fd mallocOk) es
      frames := by
  unfold ixfdCommonsockAcceptCb
  split
  · refine ⟨_, _, Adds.push rfl rfl ?_ ?_ ?_⟩ <;> simp
  · exact ⟨_, _, Adds.same rfl (fun f hf => hf) (by simp)⟩

/-- A callback that returns is not one of `write_cb`. -/
theorem adds_afterCallback
    (h : Clean n) (ht : afterCallback n = some m) :
    ∃ es frames, Adds n m es frames := by
  have hpop : ∀ {frame : Frame} {stack : List Frame},
      n.stack = frame :: stack → ∀ f ∈ stack, f ∈ n.stack := by
    intro frame stack hstack f hf
    rw [hstack]
    exact List.mem_cons_of_mem _ hf
  unfold afterCallback at ht
  split at ht
  case h_1 j stack hstack =>
      cases ht
      exact ⟨_, _, Adds.same rfl (hpop hstack) (by simp)⟩
  case h_2 c j stack hstack =>
      exact absurd (hstack ▸ List.mem_cons_self) (h.undone c j)
  case h_3 c stack hstack =>
      obtain ⟨ctx, _, rfl⟩ := Option.map_eq_some_iff.mp ht
      exact ⟨[], _, Adds.same (List.append_nil _).symm (hpop hstack) (by simp)⟩
  case h_4 c stack hstack =>
      cases ht
      exact ⟨[], _, Adds.same (List.append_nil _).symm (hpop hstack) (by simp)⟩
  case h_5 c stack hstack =>
      obtain ⟨ctx, _, rfl⟩ := Option.map_eq_some_iff.mp ht
      exact ⟨_, _, Adds.same rfl (hpop hstack) (by simp)⟩
  case h_6 => cases ht

/-- **Step lemma**: with writes that are taken whole, `write_cb` does not run. -/
theorem clean_step
    (h : Clean n) (ht : step sock n l = some m) (hl : TakesWhole l) :
    Clean m := by
  have hqueue : ∀ c, queue m c = [] := by
    intro e
    rcases step_cases h.known ht with
      ⟨c, data, cb, args, ret, ctx, rfl, hc, _, rfl⟩ |
      ⟨ret, c, stack, ctx, w, rest, rfl, hstack, _, _, _, rfl⟩ |
      ⟨_, _, hquiet⟩
    · have hnot : ¬ (c = e ∧ toSizeT ret < data.bytes.length) :=
        fun hlt => absurd hl (not_le.mpr hlt.2)
      rw [queue_write hc, h.queue e, dif_neg hnot]
      rfl
    · exact absurd (hstack ▸ List.mem_cons_self) (h.idle c)
    · rw [hquiet.queue e]
      exact h.queue e
  have hadds : ∃ es frames, Adds n m es frames := by
    cases l with
    | write c data cb args ret =>
        obtain ⟨ctx, _, _, rfl⟩ := onConn_eq_some ht
        exact adds_write hl
    | read c len ret =>
        obtain ⟨ctx, _, _, rfl⟩ := onConn_eq_some ht
        exact adds_read c ctx ret
    | close c =>
        obtain ⟨ctx, _, _, rfl⟩ := onConn_eq_some ht
        exact ⟨_, _, adds_close c ctx⟩
    | setBufreadLen c len mallocOk =>
        obtain ⟨ctx, _, _, rfl⟩ := onConn_eq_some ht
        exact ⟨[], _, Adds.same (List.append_nil _).symm (fun f hf => hf)
          (by simp)⟩
    | callbackReturns => exact adds_afterCallback h ht
    | accept fd mallocOk =>
        obtain ⟨_, _, rfl⟩ := accept_eq_some ht
        exact adds_acceptCb sock fd mallocOk
    | readReady c ret =>
        obtain ⟨ctx, _, _, rfl⟩ := onConn_eq_some ht
        exact adds_readCb sock c ctx ret
    | writeReady c =>
        obtain ⟨ctx, hc, hok, rfl⟩ := onConn_eq_some ht
        simp [h.unwatched hc] at hok
    | drainWrite ret =>
        obtain ⟨c, stack, _, _, _, hstack, _⟩ := drainWrite_eq_some ht
        exact absurd (hstack ▸ List.mem_cons_self) (h.idle c)
    | drainEnd =>
        obtain ⟨c, stack, _, hstack, _⟩ := drainEnd_eq_some ht
        exact absurd (hstack ▸ List.mem_cons_self) (h.idle c)
  obtain ⟨es, frames, hadds⟩ := hadds
  exact h.adds ht hadds hqueue

theorem clean_run
    {ls : List Label} (h : Clean n) (hrun : run (step sock) n ls = some m)
    (hls : ∀ l ∈ ls, TakesWhole l) :
    Clean m :=
  run_invariant_of_mem
    (fun _ _ l hl h ht => clean_step h ht (hls l hl)) h hrun

end Steps

/-! ## Queued replies have a callback -/

/-- Every entry of a queue has a completion callback. -/
def Called (n : Net) : Prop :=
  ∀ c, ∀ w ∈ queue n c, w.cb.isSome = true

theorem called_init : Called .init := by
  intro c w hw
  cases hw

theorem called_step
    {sock : IxfdSock} {n m : Net} {l : Label} (h : Called n) (hk : Known n)
    (ht : step sock n l = some m)
    (hl : ∀ c data args ret, l ≠ .write c data none args ret) :
    Called m := by
  intro e x hx
  rcases step_cases hk ht with
    ⟨c, data, cb, args, ret, ctx, rfl, hc, _, rfl⟩ |
    ⟨ret, c, stack, ctx, w, rest, rfl, _, hc, hq, _, rfl⟩ |
    ⟨_, _, hquiet⟩
  · rw [queue_write hc, List.mem_append] at hx
    rcases hx with hx | hx
    · exact h e x hx
    · split at hx
      · rw [List.mem_singleton] at hx
        rw [hx]
        cases cb with
        | none => exact absurd rfl (hl c data args ret)
        | some f => rfl
      · cases hx
  · have hentry : ∀ y ∈ w :: rest, y.cb.isSome = true := by
      rw [← hq, ← queue_of_conns hc]
      exact h c
    rw [queue_writeCbIter] at hx
    split at hx
    · split at hx
      · rcases List.mem_cons.mp hx with rfl | hx
        · exact hentry w List.mem_cons_self
        · exact hentry x (List.mem_cons_of_mem _ hx)
      · exact hentry x (List.mem_cons_of_mem _ hx)
    · exact h e x hx
  · rw [hquiet.queue e] at hx
    exact h e x hx

end Sock

namespace Daemon

open Sock (Net Clean Called)

section Served

variable {tostringNumber : ℚ → LuaString} {s t : Served} {d : State}
  {l : ServedLabel}

/-- Every event is for a live daemon. -/
theorem alive_of_serve (h : serve tostringNumber s l = some t) :
    s.alive = true := by
  cases l with
  | accept fd mallocOk =>
      obtain ⟨_, hguard, _⟩ := Option.bind_eq_some_iff.mp h
      have hcond := guard_eq_some hguard
      rw [Bool.and_eq_true] at hcond
      exact hcond.1
  | chunk c data env ending ret =>
      obtain ⟨_, hguard, _⟩ := Option.bind_eq_some_iff.mp h
      have hcond := guard_eq_some hguard
      simp only [Bool.and_eq_true] at hcond
      exact hcond.1.1
  | _ =>
      obtain ⟨_, hguard, _⟩ := Option.bind_eq_some_iff.mp h
      exact guard_eq_some hguard

/-- The writes among the steps of a handler are its replies. -/
theorem write_mem_labelsOfHandler
    {c e : Nat} {ret ret' : Int} {r : Handled} {data : Sock.Buffer}
    {cb : Option Nat} {args : Nat}
    (h : .write e data cb args ret' ∈ labelsOfHandler c ret r) :
    data.bytes ∈ replies r.actions ∧ cb = some 0 ∧ ret' = ret := by
  unfold labelsOfHandler at h
  rcases List.mem_append.mp h with h | h
  · obtain ⟨a, ha, hk⟩ := List.mem_flatMap.mp h
    cases a with
    | write reply =>
        simp only [labelsOf] at hk
        split at hk
        case isTrue hfits =>
            rcases List.mem_cons.mp hk with hk | hk
            · cases hk
              exact ⟨List.mem_filterMap.mpr ⟨_, ha, rfl⟩, rfl, rfl⟩
            · split at hk <;> simp at hk
        case isFalse => cases hk
    | close => simp [labelsOf] at hk
    | _ => simp [labelsOf] at hk
  · split at h <;> simp at h

/-- The writes among the steps of an event are the replies that it leads to. -/
theorem write_mem_netLabels
    {e : Nat} {ret' : Int} {data : Sock.Buffer} {cb : Option Nat} {args : Nat}
    (h : .write e data cb args ret' ∈ netLabels tostringNumber s l) :
    data.bytes ∈ repliesAfter tostringNumber s l ∧ cb = some 0 ∧
      ∃ c chunk env ending, l = .chunk c chunk env ending ret' := by
  cases l with
  | chunk c chunk env ending ret =>
      rw [netLabels, List.mem_cons] at h
      rcases h with h | h
      · cases h
      · obtain ⟨hmem, hcb, rfl⟩ := write_mem_labelsOfHandler h
        exact ⟨hmem, hcb, c, chunk, env, ending, rfl⟩
  | _ => simp [netLabels] at h

/-! ## Whole replies -/

/-- The kernel takes every reply whole. -/
def TakesReplies (tostringNumber : ℚ → LuaString) (s : Served) :
    ServedLabel → Prop
  | .chunk c data env ending ret =>
      ∀ reply ∈ replies
          (cbRead tostringNumber (s.data c) data env ending).actions,
        ret = reply.length
  | _ => True

instance (tostringNumber : ℚ → LuaString) (s : Served) :
    ∀ l, Decidable (TakesReplies tostringNumber s l)
  | .accept _ _ => inferInstanceAs (Decidable True)
  | .chunk c data env ending ret =>
      inferInstanceAs (Decidable
        (∀ reply ∈ replies
            (cbRead tostringNumber (s.data c) data env ending).actions,
          ret = reply.length))
  | .eof _ => inferInstanceAs (Decidable True)
  | .readError _ => inferInstanceAs (Decidable True)
  | .writeReady _ => inferInstanceAs (Decidable True)
  | .drainWrite _ => inferInstanceAs (Decidable True)
  | .drainEnd => inferInstanceAs (Decidable True)

/-- What holds while replies are taken whole. -/
structure Undelayed (s : Served) : Prop where
  served : ∃ d, Serves s d
  clean : Clean s.net

theorem undelayed_init : Undelayed .init where
  served := ⟨.init, Serves.init⟩
  clean := Sock.clean_init

/-- **Step lemma**: whole replies leave nothing behind. -/
theorem undelayed_step
    (h : Undelayed s) (ht : serve tostringNumber s l = some t)
    (hl : TakesReplies tostringNumber s l) :
    Undelayed t := by
  obtain ⟨d, hs⟩ := h.served
  obtain ⟨d', hstep⟩ := serves_step hs ht
  refine ⟨⟨d', hstep.serves⟩, Sock.clean_run h.clean hstep.net ?_⟩
  intro k hk
  cases k with
  | write e data cb args ret =>
      obtain ⟨hmem, _, c, chunk, env, ending, rfl⟩ := write_mem_netLabels hk
      have hret : ret = data.bytes.length := hl _ hmem
      have hfits := data.fits
      have hsize := Sock.toSizeT_of_nonneg (r := ret) (by omega) (by
        rw [hret]
        exact_mod_cast hfits)
      change data.bytes.length ≤ Sock.toSizeT ret
      omega
  | _ => trivial

/-- Whole replies are calm. -/
theorem calm_of_whole
    (h : Undelayed s) (ht : serve tostringNumber s l = some t)
    (hl : TakesReplies tostringNumber s l) :
    Calm tostringNumber s l := by
  have hnone : ∀ c, Sock.pending s.net c = [] := by
    intro c
    rw [Sock.pending_eq_nil_iff]
    exact h.clean.queue c
  cases l with
  | chunk c data env ending ret =>
      refine ⟨hnone c, fun reply hreply => ?_⟩
      have hret : ret = reply.length := hl reply hreply
      exact ⟨by omega, fun _ => by omega⟩
  | eof c => exact hnone c
  | drainWrite ret =>
      obtain ⟨_, _, hdrained⟩ := Option.bind_eq_some_iff.mp ht
      obtain ⟨net, hnet, _⟩ := drainReply_eq_some hdrained
      obtain ⟨c, stack, _, _, _, hstack, _⟩ := Sock.drainWrite_eq_some hnet
      exact absurd (hstack ▸ List.mem_cons_self) (h.clean.idle c)
  | _ => trivial

/-! ## Queued replies -/

/-- `write_cb` runs on a queue with entries, if the daemon lives. -/
def Draining (s : Served) : Prop :=
  s.alive = true → ∃ c, s.net.stack = [.drain c] ∧ Sock.queue s.net c ≠ []

/-- What holds of the queues in every run. -/
structure Queues (s : Served) : Prop where
  served : ∃ d, Serves s d
  awake : Sock.Awake s.net
  called : Called s.net

theorem queues_init : Queues .init where
  served := ⟨.init, Serves.init⟩
  awake := Sock.awake_init
  called := Sock.called_init

theorem queues_step
    (h : Queues s) (ht : serve tostringNumber s l = some t) :
    Queues t := by
  obtain ⟨d, hs⟩ := h.served
  obtain ⟨d', hstep⟩ := serves_step hs ht
  have hnet : Sock.Awake t.net ∧ Called t.net ∧ Sock.Known t.net := by
    refine run_invariant_of_mem
      (I := fun n => Sock.Awake n ∧ Called n ∧ Sock.Known n) ?_
      ⟨h.awake, h.called, hs.known⟩ hstep.net
    rintro n m k hk ⟨hawake, hcalled, hknown⟩ hm
    refine ⟨Sock.awake_step hawake hm,
      Sock.called_step hcalled hknown hm ?_, Sock.known_step hknown hm⟩
    rintro c data args ret rfl
    cases (write_mem_netLabels hk).2.1
  exact ⟨⟨d', hstep.serves⟩, hnet.1, hnet.2.1⟩

/-- A write watcher that fires finds a reply in the queue. -/
theorem draining_writeReady
    {c : Nat} (h : Queues s) (ht : serve tostringNumber s (.writeReady c) = some t) :
    Draining t := by
  obtain ⟨_, _, hready⟩ := Option.bind_eq_some_iff.mp ht
  obtain ⟨net, hnet, rfl⟩ := onNet_eq_some hready
  obtain ⟨ctx, hc, hok, rfl⟩ := Sock.onConn_eq_some hnet
  simp only [Bool.and_eq_true, List.isEmpty_iff] at hok
  obtain ⟨⟨hstack, hactive⟩, _⟩ := hok
  intro _
  refine ⟨c, by rw [Served.withNet_net, Net.withStack_stack, hstack], ?_⟩
  have hctx := h.awake c ctx hc
  have hqueue : Sock.queue (s.net.withStack (.drain c :: s.net.stack)) c =
      ctx.bufWrite :=
    Sock.queue_of_conns hc
  rcases hctx.drained (hctx.launched ▸ hactive) with hne | hdrain
  · rw [Served.withNet_net, hqueue]
    exact hne
  · rw [hstack] at hdrain
    cases hdrain

/-- **Step lemma**: while `write_cb` runs on a queue with entries, nothing else
happens. -/
theorem draining_step
    (hs : Queues s) (h : Draining s) (ht : serve tostringNumber s l = some t) :
    (∃ ret, l = .drainWrite ret) ∧ Draining t := by
  obtain ⟨c, hstack, hqueue⟩ := h (alive_of_serve ht)
  have hread : ∀ e ret net,
      Sock.step tcpBaseSock s.net (.readReady e ret) ≠ some net := by
    intro e ret net hnet
    obtain ⟨_, _, hok, _⟩ := Sock.onConn_eq_some hnet
    simp [hstack] at hok
  cases l with
  | accept fd mallocOk =>
      obtain ⟨_, _, ht⟩ := Option.bind_eq_some_iff.mp ht
      obtain ⟨m, hm, _⟩ := Option.bind_eq_some_iff.mp ht
      obtain ⟨net, hnet, _⟩ := onNet_eq_some hm
      obtain ⟨hempty, _⟩ := Sock.accept_eq_some hnet
      rw [hstack] at hempty
      cases hempty
  | chunk e data env ending ret =>
      obtain ⟨_, _, ht⟩ := Option.bind_eq_some_iff.mp ht
      obtain ⟨ctx, _, ht⟩ := Option.bind_eq_some_iff.mp ht
      obtain ⟨peer, _, ht⟩ := Option.bind_eq_some_iff.mp ht
      obtain ⟨m, hm, _⟩ := Option.bind_eq_some_iff.mp ht
      obtain ⟨net, hnet, _⟩ := onNet_eq_some hm
      exact absurd hnet (hread e _ net)
  | eof e =>
      obtain ⟨_, _, ht⟩ := Option.bind_eq_some_iff.mp ht
      obtain ⟨m, hm, _⟩ := Option.bind_eq_some_iff.mp ht
      obtain ⟨net, hnet, _⟩ := onNet_eq_some hm
      exact absurd hnet (hread e _ net)
  | readError e =>
      obtain ⟨_, _, ht⟩ := Option.bind_eq_some_iff.mp ht
      obtain ⟨net, hnet, _⟩ := onNet_eq_some ht
      exact absurd hnet (hread e _ net)
  | writeReady e =>
      obtain ⟨_, _, ht⟩ := Option.bind_eq_some_iff.mp ht
      obtain ⟨net, hnet, _⟩ := onNet_eq_some ht
      obtain ⟨_, _, hok, _⟩ := Sock.onConn_eq_some hnet
      simp [hstack] at hok
  | drainEnd =>
      obtain ⟨_, _, ht⟩ := Option.bind_eq_some_iff.mp ht
      obtain ⟨net, hnet, _⟩ := onNet_eq_some ht
      obtain ⟨e, stack, ctx, htop, hc, hempty, _⟩ :=
        Sock.drainEnd_eq_some hnet
      rw [hstack] at htop
      cases htop
      rw [Sock.queue_of_conns hc] at hqueue
      exact absurd hempty hqueue
  | drainWrite ret =>
      refine ⟨⟨ret, rfl⟩, ?_⟩
      obtain ⟨_, _, ht⟩ := Option.bind_eq_some_iff.mp ht
      obtain ⟨net, hnet, _, ⟨rfl, hsame⟩ | rfl⟩ := drainReply_eq_some ht
      · obtain ⟨e, stack, ctx, w, rest, htop, hc, hq, _, rfl⟩ :=
          Sock.drainWrite_eq_some hnet
        rw [hstack] at htop
        cases htop
        intro _
        refine ⟨c, hsame.trans hstack, ?_⟩
        rw [Served.withNet_net, Sock.queue_writeCbIter, if_pos rfl]
        by_cases hlt : Sock.toSizeT ret < w.lenRemain
        · simp [hlt]
        · -- a completed entry has a callback, which is on the stack
          have hcb := hs.called c w (by
            rw [Sock.queue_of_conns hc, hq]
            exact List.mem_cons_self)
          rw [Sock.writeCbIter_complete _ _ _ _ _ hlt] at hsame
          cases hw : w.cb with
          | none => simp [hw] at hcb
          | some f => simp [hw, hstack] at hsame
      · rintro ⟨⟩

/-- After a write watcher has fired there are only iterations of `write_cb`. -/
theorem drains_after_writeReady
    {ls ls' : List ServedLabel} {c : Nat}
    (hrun : run (serve tostringNumber) .init (ls ++ .writeReady c :: ls') =
      some s) :
    ∀ l ∈ ls', ∃ ret, l = .drainWrite ret := by
  rw [run_append] at hrun
  obtain ⟨m, hm, htail⟩ := Option.bind_eq_some_iff.mp hrun
  obtain ⟨r, hr, hrest⟩ := run_cons_success _ htail
  have hqueues : Queues m :=
    run_invariant (fun _ _ _ h ht => queues_step h ht) queues_init hm
  have hdraining := draining_writeReady hqueues hr
  have hqueues' := queues_step hqueues hr
  clear hm htail hr hrun
  induction ls' generalizing r with
  | nil => simp
  | cons k ks ih =>
      obtain ⟨r', hr', hrest'⟩ := run_cons_success _ hrest
      obtain ⟨hk, hdraining'⟩ := draining_step hqueues' hdraining hr'
      rw [List.forall_mem_cons]
      exact ⟨hk, ih r' hrest' hdraining' (queues_step hqueues' hr')⟩

end Served

/-- Nothing was freed, and every client has received its dialogue and waits for
nothing. -/
structure AllReceived (tostringNumber : ℚ → LuaString) (ls : List ServedLabel)
    (s : Served) : Prop where
  frees : ∀ b, .free b ∉ s.net.log
  received : ∀ c ctx, s.net.conns c = some ctx →
    ctx.bufWrite = [] ∧ ctx.eventWrite.active = false ∧
      ∃ fd t,
        run (Dialogue.hear tostringNumber c) (Dialogue.begin c fd)
          (servedOn c ls) = some t ∧
        t.said = eventsAbout c s.log ∧
        Sock.receivedBy c s.net.log = repliesOn c t.said

/-- **The daemon serves its clients as long as replies are taken whole**: then
nothing is freed, nothing waits, and every client has received exactly the replies
of its dialogue, without waiting for them.  And in every run, once a write watcher
has fired, nothing but iterations of `write_cb` follows. -/
theorem served_while_whole
    (tostringNumber : ℚ → LuaString) (ls : List ServedLabel) (s : Served)
    (hrun : run (serve tostringNumber) .init ls = some s) :
    (EveryStep (serve tostringNumber)
        (fun s l _ => TakesReplies tostringNumber s l) .init ls →
      AllReceived tostringNumber ls s) ∧
    ∀ before c after, ls = before ++ .writeReady c :: after →
      ∀ l ∈ after, ∃ ret, l = .drainWrite ret := by
  constructor
  · intro hwhole
    have hclean : Clean s.net := by
      have hend : Undelayed s := by
        refine run_invariant_of_everyStep ?_ undelayed_init hwhole hrun
        intro s l t h ht hl
        exact undelayed_step h ht hl
      exact hend.clean
    have hcalm : EveryStep (serve tostringNumber)
        (fun s l _ => Calm tostringNumber s l) .init ls := by
      refine everyStep_mono (I := Undelayed) ?_ undelayed_init hwhole
      intro s t l h ht hl
      exact ⟨calm_of_whole h ht hl, undelayed_step h ht hl⟩
    refine ⟨hclean.frees, fun c ctx hc => ?_⟩
    refine ⟨hclean.bufWrite hc, hclean.unwatched hc, ?_⟩
    obtain ⟨fd, t, hheard, hsaid, _, hsubmitted⟩ := dialogueOver_run hrun hc
    have htidy := tidy_of_calm hrun hcalm
    refine ⟨fd, t, hheard, hsaid, ?_⟩
    have horder : Sock.acceptedBy c s.net.log ++ Sock.pending s.net c =
        Sock.submittedTo c s.net.log := htidy.inOrder c
    rw [(Sock.pending_eq_nil_iff s.net c).mpr (hclean.queue c),
      List.append_nil] at horder
    rw [Sock.receivedBy_of_isolated htidy.separate.isolated, horder, hsubmitted]
  · rintro before c after rfl
    exact drains_after_writeReady hrun

/-- Two clients are served, the second one with a refusal. -/
theorem served_while_whole_two :
    ∃ s,
      run (serve fun _ => bytes "0") .init
          [.accept 7 true, .accept 8 true,
            .chunk 0 (bytes "$AUTH") 3 .succeeds 1,
            .chunk 1 (bytes "execute()") 4 .succeeds 21,
            .chunk 0 (bytes "execute()") 4 .succeeds 1] = some s ∧
        AllReceived (fun _ => bytes "0")
          [.accept 7 true, .accept 8 true,
            .chunk 0 (bytes "$AUTH") 3 .succeeds 1,
            .chunk 1 (bytes "execute()") 4 .succeeds 21,
            .chunk 0 (bytes "execute()") 4 .succeeds 1] s := by
  have hshown :
      (run (serve fun _ => bytes "0") .init
          [.accept 7 true, .accept 8 true,
            .chunk 0 (bytes "$AUTH") 3 .succeeds 1,
            .chunk 1 (bytes "execute()") 4 .succeeds 21,
            .chunk 0 (bytes "execute()") 4 .succeeds 1]).isSome = true := by
    decide
  obtain ⟨s, hrun⟩ := Option.isSome_iff_exists.mp hshown
  exact ⟨s, hrun, (served_while_whole (fun _ => bytes "0") _ s hrun).1
    (by decide)⟩

end Daemon
end Iojxd
