import Iojxd.ServedReplies
import Iojxd.SockIsolation

/-!
# What a client receives

From the write functions to the client: if no `write(2)` fails, a client asks
again only when its last reply is written, and no connection is closed while a
reply is in its queue, then a client receives the replies of its own dialogue, in
order, whatever happens on the other connections.
-/

namespace Iojxd

open TransitionRun

namespace Sock

/-- Bytes that the kernel has accepted on a connection, from whatever context. -/
def receivedBy (c : Nat) (log : List Effect) : List UInt8 :=
  log.flatMap fun
    | .write _ _ _ peer given ret =>
        if peer = some c then given.take ret.toNat else []
    | _ => []

/-- A connection receives what was written for its context. -/
theorem receivedBy_of_isolated
    {log : List Effect} (h : Isolated log) (c : Nat) :
    receivedBy c log = acceptedBy c log := by
  unfold receivedBy acceptedBy acceptedWhere
  apply List.flatMap_congr
  intro x hx
  cases x with
  | write c' j fd peer given ret =>
      have hown : peer = some c' := h.own _ hx c' peer rfl
      simp [hown]
  | _ => rfl

theorem pending_eq_nil_iff (s : Net) (c : Nat) :
    pending s c = [] ↔ queue s c = [] := by
  unfold pending
  rw [List.flatMap_eq_nil_iff]
  constructor
  · intro h
    apply List.eq_nil_iff_forall_not_mem.mpr
    intro w hw
    exact w.remaining_ne_nil (h w hw)
  · intro h w hw
    rw [h] at hw
    cases hw

/-- A step that keeps the streams in order and the connections apart. -/
structure Careful (sock : IxfdSock) (s : Net) (l : Label) : Prop where
  noError : NoWriteError l
  commutes : ∀ c, WriteCommutes c s l
  safely : ClosesSafely sock s l

/-- The connections are apart and their streams in order. -/
structure Tidy (s : Net) : Prop where
  separate : Separate s
  inOrder : ∀ c, InOrder c s

section Careful

variable {sock : IxfdSock} {s t : Net}

theorem tidy_init :
    Tidy .init where
  separate := separate_init
  inOrder _ := rfl

theorem tidy_step
    {l : Label} (h : Tidy s) (ht : step sock s l = some t)
    (hl : Careful sock s l) :
    Tidy t where
  separate := separate_step h.separate ht hl.safely
  inOrder c :=
    (inOrder_step_iff c h.separate.known (h.inOrder c) hl.noError ht).mpr
      (hl.commutes c)

theorem tidy_run
    {ls : List Label} (h : Tidy s) (hrun : run (step sock) s ls = some t)
    (hls : EveryStep (step sock) (fun s l _ => Careful sock s l) s ls) :
    Tidy t :=
  run_invariant_of_everyStep (fun _ _ _ h ht hl => tidy_step h ht hl) h hls hrun

/-- A step that neither uses nor closes a context, and in which no `write(2)`
fails. -/
theorem careful_of_unused
    {l : Label} (hl : NoWriteError l) (hused : usedBy l = none)
    (hclosed : closedBy sock s l = none) :
    Careful sock s l where
  noError := hl
  commutes := by
    intro c
    cases l with
    | write => cases hused
    | _ => trivial
  safely := by
    constructor
    · intro c hc
      rw [hused] at hc
      cases hc
    · intro c hc
      rw [hclosed] at hc
      cases hc

end Careful

end Sock

namespace Daemon

open Sock (Net Careful Tidy)

/-! ## The handler of a read -/

/-- The handler of a read on `c` runs, and `c` was not closed. -/
structure Handling (c : Nat) (n : Net) : Prop where
  stack : n.stack = [.readDone c]
  opened : ¬ Sock.Closed n c

/-- Every step of the connection layer is careful. -/
def CarefulRun (n : Net) (ks : List Sock.Label) : Prop :=
  EveryStep (Sock.step tcpBaseSock) (fun n k _ => Careful tcpBaseSock n k) n ks

section Handling

variable {n m : Net} {c : Nat} {ret : Int}

/-- A direct write with nothing pending. -/
theorem careful_write
    (h : Handling c n) (hnone : Sock.pending n c = []) (h0 : 0 ≤ ret)
    (data : Sock.Buffer) (cb : Option Nat) (args : Nat) :
    Careful tcpBaseSock n (.write c data cb args ret) where
  noError := h0
  commutes := by
    rintro e rfl
    simp [hnone]
  safely := by
    constructor
    · rintro e ⟨⟩
      exact h.opened
    · rintro e ⟨⟩

/-- A close with nothing pending. -/
theorem careful_close
    (h : Handling c n) (hnone : Sock.queue n c = []) :
    Careful tcpBaseSock n (.close c) where
  noError := trivial
  commutes := fun _ => trivial
  safely := by
    constructor
    · rintro e ⟨⟩
    · rintro e ⟨⟩ ctx hc
      refine Or.inl ⟨h.opened, ?_, by simp [h.stack]⟩
      rw [← Sock.queue_of_conns hc]
      exact hnone

/-- The return of a callback that closes nothing. -/
theorem careful_return
    (hstack : ∀ e stack, n.stack ≠ .closeDone e :: stack) :
    Careful tcpBaseSock n .callbackReturns := by
  refine Sock.careful_of_unused (l := .callbackReturns) trivial rfl ?_
  simp only [Sock.closedBy]

/-- A reply is written with nothing pending; if the kernel takes all of it,
nothing is pending after it. -/
structure Replied (c : Nat) (ret : Int) (reply : LuaString) (n m : Net) :
    Prop where
  careful : CarefulRun n (labelsOf c ret (.write reply))
  handling : Handling c m
  queue : reply.length ≤ ret → Sock.queue m c = []

theorem replied_of_run
    {reply : LuaString} (h : Handling c n) (hnone : Sock.pending n c = [])
    (h0 : 0 ≤ ret)
    (hrun : run (Sock.step tcpBaseSock) n (labelsOf c ret (.write reply)) =
      some m) :
    Replied c ret reply n m := by
  have hempty := (Sock.pending_eq_nil_iff n c).mp hnone
  rw [labelsOf] at hrun
  split at hrun
  case isFalse hfits =>
      cases hrun
      refine ⟨?_, h, fun _ => hempty⟩
      rw [labelsOf, dif_neg hfits]
      trivial
  case isTrue hfits =>
      obtain ⟨net, hnet, htail⟩ := run_cons_success _ hrun
      have hcareful := careful_write h hnone h0 ⟨reply, hfits⟩ (some 0) 0
      have hwrite := hnet
      obtain ⟨ctx, hc, hok, hwritten⟩ := Sock.onConn_eq_some hwrite
      rw [Bool.and_eq_true] at hok
      have hret := Sock.toSizeT_of_writeRet hok.2 hfits h0
      have hqueue : Sock.queue net c = Sock.queue n c ++ _ :=
        hwritten ▸ Sock.queue_write hc ⟨reply, hfits⟩ (some 0) 0 ret c
      by_cases hlt : Sock.toSizeT ret < reply.length
      · rw [if_pos hlt] at htail
        cases htail
        rw [Sock.write_queued _ _ _ _ _ _ hlt] at hwritten
        constructor
        case careful =>
            rw [labelsOf, dif_pos hfits, if_pos hlt]
            exact everyStep_cons_of_some hnet hcareful trivial
        case handling =>
            refine ⟨by rw [hwritten]; exact h.stack, ?_⟩
            rw [hwritten]
            simpa [Sock.Closed, Sock.Effect.closes, or_and_right, exists_or]
              using h.opened
        case queue =>
            intro hle
            omega
      · rw [if_neg hlt] at htail
        obtain ⟨net', hnet', hend⟩ := run_cons_success _ htail
        cases hend
        rw [Sock.write_complete _ _ _ _ _ _ hlt] at hwritten
        have hentered : net.stack = .writeDone n.calls :: n.stack := by
          rw [hwritten]
          rfl
        have hreturned : m = (net.withStack n.stack).emit
            [.returned n.calls true] := by
          have hstep : Sock.afterCallback net = some m := hnet'
          unfold Sock.afterCallback at hstep
          rw [hentered] at hstep
          exact (Option.some.inj hstep).symm
        constructor
        case careful =>
            rw [labelsOf, dif_pos hfits, if_neg hlt]
            refine everyStep_cons_of_some hnet hcareful
              (everyStep_cons_of_some hnet' ?_ trivial)
            apply careful_return
            rw [hentered]
            simp
        case handling =>
            refine ⟨by rw [hreturned]; exact h.stack, ?_⟩
            rw [hreturned, hwritten]
            simpa [Sock.Closed, Sock.Effect.closes, or_and_right, exists_or]
              using h.opened
        case queue =>
            intro _
            rw [Sock.queue_congr (s := net) (by rw [hreturned]; rfl), hqueue,
              hempty]
            simp [hlt]

end Handling

section Reads

variable {tostringNumber : ℚ → LuaString}

/-- A handler whose steps are one reply at most, and then a close at most. -/
structure Polite (c : Nat) (ret : Int) (r : Handled) (reply : Option LuaString) :
    Prop where
  replies : replies r.actions = reply.toList
  labels : r.actions.flatMap (labelsOf c ret) =
    reply.toList.flatMap (fun reply => labelsOf c ret (.write reply)) ++
      if .close ∈ r.actions then [.close c] else []

theorem polite_executeCmd (c : Nat) (ret : Int) (cmd : LuaString) (env : Nat) :
    ∃ reply, Polite c ret (executeCmd cmd env) reply := by
  unfold executeCmd commands
  by_cases hauth : cmd = bytes "AUTH"
  · refine ⟨some (bytes "1"), ?_, ?_⟩
    · simp [hauth, replies]
    · simp [hauth, labelsOf]
  · by_cases hexit : cmd = bytes "EXIT"
    · have hne : bytes "EXIT" ≠ bytes "AUTH" := by decide
      refine ⟨some (bytes "1"), ?_, ?_⟩
      · simp [hexit, hne, replies]
      · simp [hexit, hne, labelsOf]
    · refine ⟨none, ?_, ?_⟩
      · simp [hauth, hexit, replies]
      · simp [hauth, hexit]

theorem polite_runChunk
    (c : Nat) (ret : Int) (context : Nat) (data : LuaString)
    (ending : ChunkEnd) :
    ∃ reply, Polite c ret (runChunk tostringNumber context data ending)
      reply := by
  cases ending with
  | loadFails msg =>
      exact ⟨some (bytes "0\n" ++ msg), by simp [runChunk, replies],
        by simp [runChunk, labelsOf]⟩
  | succeeds =>
      exact ⟨some (bytes "1"), by simp [runChunk, replies],
        by simp [runChunk, labelsOf]⟩
  | raises value =>
      cases hv : value.concatOperand tostringNumber with
      | none =>
          exact ⟨none, by simp [runChunk, hv, replies],
            by simp [runChunk, hv, labelsOf]⟩
      | some result =>
          exact ⟨some (bytes "0\n" ++ result), by simp [runChunk, hv, replies],
            by simp [runChunk, hv, labelsOf]⟩

theorem polite_cbRead
    (c : Nat) (ret : Int) (session : Option SessionData)
    (chunk : List UInt8) (env : Nat) (ending : ChunkEnd) :
    ∃ reply, Polite c ret (cbRead tostringNumber session chunk env ending)
      reply := by
  cases hcmd : commandOf chunk with
  | some cmd =>
      rw [cbRead_command tostringNumber session env ending hcmd]
      exact polite_executeCmd c ret cmd env
  | none =>
      have hrefused : isAuthed session = false →
          ∃ reply, Polite c ret
            (cbRead tostringNumber session chunk env ending) reply := by
        intro hs
        rw [cbRead_refused tostringNumber session env ending hs hcmd]
        exact ⟨some (bytes "0\nyou are not authed."), by simp [replies],
          by simp [labelsOf]⟩
      rcases session with _ | ⟨_ | _, context⟩
      · exact hrefused rfl
      · exact hrefused rfl
      · rw [cbRead_chunk tostringNumber env ending context hcmd]
        exact polite_runChunk c ret context (cString chunk) ending

/-- **Handler lemma**: with nothing pending, a handler whose replies are taken
whole if it closes takes careful steps. -/
theorem careful_handler
    {n t : Net} {c : Nat} {ret : Int} {r : Handled} {reply : Option LuaString}
    (hr : Polite c ret r reply) (h : Handling c n)
    (hnone : Sock.pending n c = [])
    (hreplies : ∀ reply ∈ replies r.actions,
      0 ≤ ret ∧ (.close ∈ r.actions → (reply.length : Int) ≤ ret))
    (hrun : run (Sock.step tcpBaseSock) n (labelsOfHandler c ret r) = some t) :
    CarefulRun n (labelsOfHandler c ret r) := by
  have hempty := (Sock.pending_eq_nil_iff n c).mp hnone
  rw [labelsOfHandler, hr.labels, run_append] at hrun
  obtain ⟨m, hm, hreturn⟩ := Option.bind_eq_some_iff.mp hrun
  have hboth := hm
  rw [run_append] at hboth
  obtain ⟨w, hw, hclose⟩ := Option.bind_eq_some_iff.mp hboth
  have hreply : CarefulRun n (reply.toList.flatMap
        fun reply => labelsOf c ret (.write reply)) ∧
      Handling c w ∧ (.close ∈ r.actions → Sock.queue w c = []) := by
    cases reply with
    | none =>
        cases hw
        exact ⟨trivial, h, fun _ => hempty⟩
    | some reply =>
        rw [Option.toList_some, List.flatMap_singleton] at hw ⊢
        obtain ⟨h0, hwhole⟩ := hreplies reply (by simp [hr.replies])
        have hreplied := replied_of_run h hnone h0 hw
        exact ⟨hreplied.careful, hreplied.handling,
          fun hclose => hreplied.queue (hwhole hclose)⟩
  obtain ⟨hwritten, hhandling, hdrained⟩ := hreply
  have hclosed : CarefulRun w (if .close ∈ r.actions then [.close c] else []) ∧
      m.stack = w.stack := by
    split at hclose
    case isTrue hmem =>
        obtain ⟨net, hnet, hend⟩ := run_cons_success _ hclose
        cases hend
        rw [if_pos hmem]
        refine ⟨everyStep_cons_of_some hnet
          (careful_close hhandling (hdrained hmem)) trivial, ?_⟩
        obtain ⟨ctx, _, _, rfl⟩ := Sock.onConn_eq_some hnet
        rfl
    case isFalse hmem =>
        cases hclose
        rw [if_neg hmem]
        exact ⟨trivial, rfl⟩
  obtain ⟨hclosing, hstack⟩ := hclosed
  rw [CarefulRun, labelsOfHandler, hr.labels]
  refine everyStep_append (everyStep_append hwritten hw hclosing) hm ?_
  split
  · refine fun net _ => ⟨?_, trivial⟩
    apply careful_return
    rw [hstack, hhandling.stack]
    simp
  · trivial

end Reads

/-! ## Events -/

/-- No `write(2)` of a reply fails, a chunk is handled when nothing is pending on
its connection, and when the connection is closed nothing is pending or left
over. -/
def Calm (tostringNumber : ℚ → LuaString) (s : Served) : ServedLabel → Prop
  | .chunk c data env ending ret =>
      Sock.pending s.net c = [] ∧
        ∀ reply ∈ replies
            (cbRead tostringNumber (s.data c) data env ending).actions,
          0 ≤ ret ∧
            (.close ∈ (cbRead tostringNumber (s.data c) data env
                ending).actions → (reply.length : Int) ≤ ret)
  | .eof c => Sock.pending s.net c = []
  | .drainWrite ret => 0 ≤ ret
  | _ => True

instance (tostringNumber : ℚ → LuaString) (s : Served) :
    ∀ l, Decidable (Calm tostringNumber s l)
  | .accept _ _ => inferInstanceAs (Decidable True)
  | .chunk c data env ending ret =>
      inferInstanceAs (Decidable
        (Sock.pending s.net c = [] ∧
          ∀ reply ∈ replies
              (cbRead tostringNumber (s.data c) data env ending).actions,
            0 ≤ ret ∧
              (.close ∈ (cbRead tostringNumber (s.data c) data env
                  ending).actions → (reply.length : Int) ≤ ret)))
  | .eof c => inferInstanceAs (Decidable (Sock.pending s.net c = []))
  | .readError _ => inferInstanceAs (Decidable True)
  | .writeReady _ => inferInstanceAs (Decidable True)
  | .drainWrite ret => inferInstanceAs (Decidable (0 ≤ ret))
  | .drainEnd => inferInstanceAs (Decidable True)

section Events

variable {tostringNumber : ℚ → LuaString} {s t : Served} {d : State} {c : Nat}

/-- A read closes nothing before its callback. -/
theorem careful_readReady (n : Net) (c : Nat) (ret : Sock.ReadRet) :
    Careful tcpBaseSock n (.readReady c ret) := by
  refine Sock.careful_of_unused (l := .readReady c ret) trivial rfl ?_
  cases ret with
  | error => rfl
  | data bytes =>
      cases bytes with
      | nil => rfl
      | cons b bs => rfl

/-- After its read a context is still open. -/
theorem open_of_read
    {net : Net} {ctx : Sock.IxfdConnCtx} {ret : Sock.ReadRet}
    (h : Tidy s.net)
    (hnet : Sock.step tcpBaseSock s.net (.readReady c ret) = some net)
    (hc : net.conns c = some ctx) (hactive : ctx.eventRead.active = true) :
    ¬ Sock.Closed net c :=
  (Sock.tidy_step h hnet (careful_readReady s.net c ret)).separate.reading c ctx
    hc hactive

theorem careful_chunk
    (hs : Serves s d) (htidy : Tidy s.net) {data : List UInt8} {env : Nat}
    {ending : ChunkEnd} {ret : Int}
    (h : serve tostringNumber s (.chunk c data env ending ret) = some t)
    (hrun : run (Sock.step tcpBaseSock) s.net
      (netLabels tostringNumber s (.chunk c data env ending ret)) = some t.net)
    (hcalm : Calm tostringNumber s (.chunk c data env ending ret)) :
    CarefulRun s.net
      (netLabels tostringNumber s (.chunk c data env ending ret)) := by
  obtain ⟨_, hguard, h⟩ := Option.bind_eq_some_iff.mp h
  have hcond := guard_eq_some hguard
  simp only [Bool.and_eq_true, Bool.not_eq_true', List.isEmpty_eq_false_iff]
    at hcond
  obtain ⟨net, hnet, hhandled⟩ := run_cons_success _ hrun
  obtain ⟨ctx, hctx, hactive, _, _, hconns, _, hstack⟩ :=
    readReady_data hs hcond.1.2 hnet
  obtain ⟨hnone, hreplies⟩ := hcalm
  have hhandling : Handling c net :=
    ⟨hstack, open_of_read htidy hnet (hconns ▸ hctx) hactive⟩
  have hpending : Sock.pending net c = [] := by
    rw [Sock.pending_eq_nil_iff, Sock.queue_congr hconns,
      ← Sock.pending_eq_nil_iff]
    exact hnone
  have hshape : ∃ reply, Polite c ret
      (cbRead tostringNumber (s.data c) data env ending) reply :=
    polite_cbRead c ret (s.data c) data env ending
  obtain ⟨reply, hpolite⟩ := hshape
  exact everyStep_cons_of_some hnet (careful_readReady _ _ _)
    (careful_handler hpolite hhandling hpending hreplies hhandled)

theorem careful_eof
    (htidy : Tidy s.net)
    (hrun : run (Sock.step tcpBaseSock) s.net
      (netLabels tostringNumber s (.eof c)) = some t.net)
    (hnone : Sock.pending s.net c = []) :
    CarefulRun s.net (netLabels tostringNumber s (.eof c)) := by
  obtain ⟨net, hnet, hreturn⟩ := run_cons_success _ hrun
  refine everyStep_cons_of_some hnet (careful_readReady _ _ _)
    fun net' _ => ⟨?_, trivial⟩
  obtain ⟨ctx, hctx, hactive, _, _, hentered⟩ := readReady_eof hnet
  have hconns : net.conns = s.net.conns := by
    rw [hentered]
    rfl
  have hopen := open_of_read htidy hnet (hconns ▸ hctx) hactive
  have hempty : ctx.bufWrite = [] := by
    rw [← Sock.queue_of_conns hctx]
    exact (Sock.pending_eq_nil_iff s.net c).mp hnone
  refine ⟨trivial, fun _ => trivial, ?_, ?_⟩
  · rintro e ⟨⟩
  · have hstack : net.stack = [.closeDone c] := by
      rw [hentered]
      rfl
    intro e he
    simp only [Sock.closedBy, hstack] at he
    cases he
    intro ctx' hctx'
    rw [hconns, hctx] at hctx'
    cases hctx'
    exact Or.inl ⟨hopen, hempty, by simp [hstack]⟩

/-- **Step lemma**: a calm event takes careful steps of the connection layer. -/
theorem careful_of_calm
    (hs : Serves s d) (htidy : Tidy s.net) {l : ServedLabel}
    (h : serve tostringNumber s l = some t)
    (hrun : run (Sock.step tcpBaseSock) s.net (netLabels tostringNumber s l) =
      some t.net)
    (hcalm : Calm tostringNumber s l) :
    CarefulRun s.net (netLabels tostringNumber s l) := by
  cases l with
  | accept fd mallocOk =>
      obtain ⟨net, hnet, _⟩ := run_cons_success _ hrun
      refine everyStep_cons_of_some hnet
        (Sock.careful_of_unused trivial rfl rfl) fun net' _ => ⟨?_, trivial⟩
      obtain ⟨_, _, rfl⟩ := Sock.accept_eq_some hnet
      apply careful_return
      simp [Sock.ixfdCommonsockAcceptCb, tcpBaseSock]
  | chunk c data env ending ret => exact careful_chunk hs htidy h hrun hcalm
  | eof c => exact careful_eof htidy hrun hcalm
  | readError c =>
      exact fun net _ => ⟨careful_readReady _ _ _, trivial⟩
  | writeReady c =>
      exact fun net _ => ⟨Sock.careful_of_unused trivial rfl rfl, trivial⟩
  | drainWrite ret =>
      exact fun net _ => ⟨Sock.careful_of_unused hcalm rfl rfl, trivial⟩
  | drainEnd =>
      exact fun net _ => ⟨Sock.careful_of_unused trivial rfl rfl, trivial⟩

theorem tidy_of_calm
    {ls : List ServedLabel}
    (hrun : run (serve tostringNumber) .init ls = some s)
    (hcalm : EveryStep (serve tostringNumber)
      (fun s l _ => Calm tostringNumber s l) .init ls) :
    Tidy s.net := by
  have hend : (∃ d, Serves s d) ∧ Tidy s.net := by
    refine run_invariant_of_everyStep
      (I := fun s => (∃ d, Serves s d) ∧ Tidy s.net) ?_ ?_ hcalm hrun
    · rintro s l t ⟨⟨d, hs⟩, htidy⟩ ht hl
      obtain ⟨d', hstep⟩ := serves_step hs ht
      exact ⟨⟨d', hstep.serves⟩, Sock.tidy_run htidy hstep.net
        (careful_of_calm hs htidy ht hstep.net hl)⟩
    · exact ⟨⟨.init, Serves.init⟩, Sock.tidy_init⟩
  exact hend.2

end Events

/-- **A client receives its dialogue**: in every run whose events are calm, what
was received on a connection, followed by what is still in its queue, are the
replies of the dialogue over the chunks sent there, in order and from the first
one on; nothing of it went to another client, and nothing came from another
dialogue. -/
theorem client_receives_dialogue
    (tostringNumber : ℚ → LuaString) (ls : List ServedLabel) (s : Served)
    (hrun : run (serve tostringNumber) .init ls = some s)
    (hcalm : EveryStep (serve tostringNumber)
      (fun s l _ => Calm tostringNumber s l) .init ls)
    (c : Nat) (ctx : Sock.IxfdConnCtx) (hc : s.net.conns c = some ctx) :
    ∃ fd t,
      run (Dialogue.hear tostringNumber c) (Dialogue.begin c fd)
        (servedOn c ls) = some t ∧
      t.said = eventsAbout c s.log ∧
      Sock.receivedBy c s.net.log ++ Sock.pending s.net c =
        repliesOn c t.said := by
  obtain ⟨fd, t, hheard, hsaid, _, hsubmitted⟩ :=
    dialogueOver_run hrun hc
  have htidy := tidy_of_calm hrun hcalm
  refine ⟨fd, t, hheard, hsaid, ?_⟩
  rw [Sock.receivedBy_of_isolated htidy.separate.isolated, ← hsubmitted]
  exact htidy.inOrder c

/-- Two clients at a time; the second one is refused, and a reply to the first
one waits in its queue. -/
theorem client_receives_dialogue_two :
    ∃ s ctx,
      run (serve fun _ => bytes "0") .init
          [.accept 7 true, .accept 8 true,
            .chunk 0 (bytes "$AUTH") 3 .succeeds 1,
            .chunk 1 (bytes "execute()") 4 .succeeds 21,
            .chunk 0 (bytes "execute()") 4 .succeeds 1,
            .chunk 0 (bytes "(") 4 (.loadFails (bytes "eof")) 2,
            .writeReady 0, .drainWrite 1] = some s ∧
        s.net.conns 0 = some ctx ∧
        ∃ fd t,
          run (Dialogue.hear (fun _ => bytes "0") 0) (Dialogue.begin 0 fd)
            [.chunk (bytes "$AUTH") 3 .succeeds,
              .chunk (bytes "execute()") 4 .succeeds,
              .chunk (bytes "(") 4 (.loadFails (bytes "eof"))] = some t ∧
          t.said = eventsAbout 0 s.log ∧
          Sock.receivedBy 0 s.net.log ++ Sock.pending s.net 0 =
            repliesOn 0 t.said := by
  have hshown :
      ((run (serve fun _ => bytes "0") .init
          [.accept 7 true, .accept 8 true,
            .chunk 0 (bytes "$AUTH") 3 .succeeds 1,
            .chunk 1 (bytes "execute()") 4 .succeeds 21,
            .chunk 0 (bytes "execute()") 4 .succeeds 1,
            .chunk 0 (bytes "(") 4 (.loadFails (bytes "eof")) 2,
            .writeReady 0, .drainWrite 1]).map
        fun s => (s.net.conns 0).isSome) = some true := by decide
  obtain ⟨s, hrun, hsome⟩ := Option.map_eq_some_iff.mp hshown
  obtain ⟨ctx, hc⟩ := Option.isSome_iff_exists.mp hsome
  exact ⟨s, ctx, hrun, hc,
    client_receives_dialogue (fun _ => bytes "0") _ s hrun (by decide) 0 ctx
      hc⟩

end Daemon
end Iojxd
