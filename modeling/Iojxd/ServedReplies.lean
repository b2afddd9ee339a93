import Iojxd.ServedRefinement

/-!
# The replies of the served daemon

Along every run of the served daemon the daemon of `DaemonModel` takes the steps
that the events amount to, hears on each connection what was received there, and
says what was handed to the write functions: nothing is written that is not a
reply of the dialogue, and no reply is left out.
-/

namespace Iojxd

open TransitionRun

namespace Sock

/-- The data that a label hands to `ixfd_commonsock_write` for a connection. -/
def writtenBy (c : Nat) : Label → List UInt8
  | .write c' data _ _ _ => if c' = c then data.bytes else []
  | _ => []

section Written

variable {sock : IxfdSock} {s t : Net}

theorem submitted_step
    {l : Label} (hk : Known s) (h : step sock s l = some t) (c : Nat) :
    submittedTo c t.log = submittedTo c s.log ++ writtenBy c l := by
  rcases step_cases hk h with
    ⟨c', data, cb, args, ret, ctx, rfl, _, _, rfl⟩ |
    ⟨ret, c', stack, ctx, w, rest, rfl, _, _, _, _, rfl⟩ |
    ⟨hnw, _, hquiet⟩
  · exact submitted_write s c' ctx data cb args ret c
  · rw [submitted_writeCbIter]
    exact (List.append_nil _).symm
  · obtain ⟨es, hlog, hes⟩ := hquiet.log
    have hnone : writtenBy c l = [] := by
      cases l with
      | write c' data cb args ret => exact absurd rfl (hnw c' data cb args ret)
      | _ => rfl
    rw [hlog, submittedTo_append, submittedTo_quiet c hes, hnone]

theorem submitted_run
    {ls : List Label} (hk : Known s) (h : run (step sock) s ls = some t)
    (c : Nat) :
    submittedTo c t.log = submittedTo c s.log ++ ls.flatMap (writtenBy c) := by
  induction ls generalizing s with
  | nil =>
      cases h
      simp
  | cons l ls ih =>
      obtain ⟨m, hm, htail⟩ := run_cons_success _ h
      rw [ih (known_step hk hm) htail, submitted_step hk hm,
        List.flatMap_cons, List.append_assoc]

end Written

end Sock

namespace Daemon

open Sock (Net)

/-- The replies on a connection, one after the other. -/
def repliesOn (c : Nat) (log : List Event) : List UInt8 :=
  log.flatMap fun
    | .act c' (.write reply) => if c' = c then reply else []
    | _ => []

/-- What is heard on a connection, among the events. -/
def servedOn (c : Nat) (ls : List ServedLabel) : List Heard :=
  ls.filterMap fun
    | .chunk c' data env ending _ =>
        if c' = c then some (.chunk data env ending) else none
    | .eof c' => if c' = c then some .eof else none
    | _ => none

/-- The replies on a connection that an event leads to. -/
def repliesTo (tostringNumber : ℚ → LuaString) (s : Served) (e : Nat)
    (l : ServedLabel) : List UInt8 :=
  match l with
  | .chunk c _ _ _ _ =>
      if c = e then (repliesAfter tostringNumber s l).flatten else []
  | _ => []

theorem repliesOn_append (c : Nat) (as bs : List Event) :
    repliesOn c (as ++ bs) = repliesOn c as ++ repliesOn c bs :=
  List.flatMap_append

theorem servedOn_append (c : Nat) (ls ls' : List ServedLabel) :
    servedOn c (ls ++ ls') = servedOn c ls ++ servedOn c ls' :=
  List.filterMap_append

section Replies

variable {tostringNumber : ℚ → LuaString} {s t : Served} {d d' : State}
  {l : ServedLabel}

/-- The replies among the events of a handler. -/
theorem repliesOn_eventsOf (c e : Nat) (r : Handled) :
    repliesOn e (eventsOf c r) =
      if c = e then (replies r.actions).flatten else [] := by
  have hmap : ∀ as : List Action, repliesOn e (as.map (Event.act c)) =
      if c = e then (replies as).flatten else [] := by
    intro as
    induction as with
    | nil => simp [repliesOn, replies]
    | cons a as ih =>
        rw [List.map_cons, ← List.singleton_append, repliesOn_append, ih,
          replies_cons]
        by_cases hce : c = e
        · subst hce
          cases a <;> simp [repliesOn, replies]
        · cases a <;> simp [repliesOn, hce]
  have herror : ∀ error, repliesOn e [.raised c error] = [] := by
    intro error
    rfl
  unfold eventsOf
  rw [repliesOn_append, hmap]
  cases r.error with
  | none => simp [repliesOn]
  | some error => simp [herror]

/-- What the steps of the actions hand to the write functions. -/
theorem writtenBy_labelsOf
    (c : Nat) (ret : Int) (e : Nat) {as : List Action}
    (hfits : ∀ reply ∈ replies as, reply.length < Sock.sizeMod) :
    (as.flatMap (labelsOf c ret)).flatMap (Sock.writtenBy e) =
      if c = e then (replies as).flatten else [] := by
  induction as with
  | nil => simp [replies]
  | cons a as ih =>
      rw [replies_cons, List.forall_mem_append] at hfits
      rw [List.flatMap_cons, List.flatMap_append, ih hfits.2, replies_cons]
      cases a with
      | write reply =>
          have hreply : reply.length < Sock.sizeMod :=
            hfits.1 reply (by simp [replies])
          have hreturn : (if Sock.toSizeT ret < reply.length then []
              else [Sock.Label.callbackReturns]).flatMap (Sock.writtenBy e) =
                [] := by
            split <;> rfl
          rw [labelsOf, dif_pos hreply, List.flatMap_cons, hreturn]
          by_cases hce : c = e <;> simp [Sock.writtenBy, replies, hce]
      | close => simp [labelsOf, Sock.writtenBy, replies]
      | _ => simp [labelsOf, replies]

/-- The daemon logs the replies that the event leads to. -/
theorem repliesOn_step
    (hs : Serves s d)
    (hrun : run (step tostringNumber) d (daemonLabels s l) = some d')
    (e : Nat) :
    repliesOn e d'.log =
      repliesOn e d.log ++ repliesTo tostringNumber s e l := by
  cases l with
  | accept fd mallocOk =>
      obtain ⟨m, hm, hend⟩ := run_cons_success _ hrun
      cases hend
      obtain ⟨-, -, -, -, -, rfl⟩ := accept_eq_some hm
      exact repliesOn_append e d.log [.accepted s.net.nextConn fd]
  | chunk c data env ending ret =>
      obtain ⟨m, hm, hend⟩ := run_cons_success _ hrun
      cases hend
      obtain ⟨conn, peer, hc, -, -, -, -, -, rfl⟩ := chunk_eq_some hm
      have hdata : conn.data = s.data c := by
        have hconn := hs.conns c
        rw [hc, eq_comm, Option.map_eq_some_iff] at hconn
        obtain ⟨ctx, _, rfl⟩ := hconn
        rfl
      have hc' : (d.emit [.received c peer data]).conns c = some conn := hc
      rw [log_performAll hc', State.emit_log, repliesOn_append,
        repliesOn_append, repliesOn_eventsOf, hdata]
      have hreceived : repliesOn e [.received c peer data] = [] := rfl
      rw [hreceived, List.append_nil]
      rfl
  | eof c =>
      obtain ⟨m, hm, hend⟩ := run_cons_success _ hrun
      cases hend
      obtain ⟨conn, hc, -, -, rfl⟩ := eof_eq_some hm
      rw [log_performAll hc, repliesOn_append, repliesOn_eventsOf]
      simp [replies, repliesTo]
  | readError c =>
      cases hrun
      exact (List.append_nil _).symm
  | writeReady c =>
      cases hrun
      exact (List.append_nil _).symm
  | drainWrite ret =>
      cases hrun
      exact (List.append_nil _).symm
  | drainEnd =>
      cases hrun
      exact (List.append_nil _).symm

/-- The connection layer gets the replies that the event leads to. -/
theorem writtenBy_netLabels
    (hfits : ∀ reply ∈ repliesAfter tostringNumber s l,
      reply.length < Sock.sizeMod) (e : Nat) :
    (netLabels tostringNumber s l).flatMap (Sock.writtenBy e) =
      repliesTo tostringNumber s e l := by
  cases l with
  | chunk c data env ending ret =>
      have hreturn : (if (cbRead tostringNumber (s.data c) data env
            ending).error.isNone then [Sock.Label.callbackReturns]
          else []).flatMap (Sock.writtenBy e) = [] := by
        split <;> rfl
      rw [netLabels, List.flatMap_cons, labelsOfHandler, List.flatMap_append,
        hreturn, List.append_nil]
      exact writtenBy_labelsOf c ret e hfits
  | _ => rfl

end Replies

/-! ## Runs -/

/-- What a run of the served daemon is for the daemon: its steps `ds`, which hear
the same and lead to the state `d`; and what was handed to the write functions
is what was replied. -/
structure ServesRun (tostringNumber : ℚ → LuaString) (ls : List ServedLabel)
    (s : Served) (ds : List Label) (d : State) : Prop where
  daemon : run (step tostringNumber) .init ds = some d
  serves : Serves s d
  heard : ∀ c, heardOn c ds = servedOn c ls
  submitted : ∀ c, Sock.submittedTo c s.net.log = repliesOn c s.log

section Runs

variable {tostringNumber : ℚ → LuaString} {ls : List ServedLabel} {s : Served}

theorem heardOn_daemonLabels (c : Nat) (s : Served) (l : ServedLabel) :
    heardOn c (daemonLabels s l) = servedOn c [l] := by
  cases l <;> rfl

/-- **Refinement**: every run of the served daemon is a run of the daemon. -/
theorem serves_run
    (hrun : run (serve tostringNumber) .init ls = some s) :
    ∃ ds d, ServesRun tostringNumber ls s ds d := by
  induction ls using List.reverseRecOn generalizing s with
  | nil =>
      cases hrun
      exact ⟨[], .init, rfl, Serves.init, fun _ => rfl, fun _ => rfl⟩
  | append_singleton ls l ih =>
      rw [run_append] at hrun
      obtain ⟨m, hm, hlast⟩ := Option.bind_eq_some_iff.mp hrun
      obtain ⟨t, ht, hend⟩ := run_cons_success _ hlast
      cases hend
      obtain ⟨ds, d, hbefore⟩ := ih hm
      obtain ⟨d', hstep⟩ := serves_step hbefore.serves ht
      refine ⟨ds ++ daemonLabels m l, d', ?_, hstep.serves, ?_, ?_⟩
      · rw [run_append, hbefore.daemon]
        exact hstep.daemon
      · intro c
        rw [heardOn_append, servedOn_append, hbefore.heard c,
          heardOn_daemonLabels]
      · intro c
        rw [Sock.submitted_run hbefore.serves.known hstep.net,
          writtenBy_netLabels hstep.fits, hbefore.submitted c,
          ← hstep.serves.log, repliesOn_step hbefore.serves hstep.daemon,
          hbefore.serves.log]

/-- The replies on a connection are among what is logged about it. -/
theorem repliesOn_eventsAbout (c : Nat) (log : List Event) :
    repliesOn c (eventsAbout c log) = repliesOn c log := by
  induction log with
  | nil => rfl
  | cons x log ih =>
      have happ := eventsAbout_append c [x] log
      rw [List.singleton_append] at happ
      have hlog := repliesOn_append c [x] log
      rw [List.singleton_append] at hlog
      rw [happ, repliesOn_append, ih, hlog]
      congr 1
      by_cases hx : x.conn = c
      · simp [eventsAbout, hx]
      · have hnone : repliesOn c [x] = [] := by
          cases x with
          | act e a =>
              have he : e ≠ c := hx
              cases a <;> simp [repliesOn, he]
          | _ => rfl
        rw [hnone]
        simp [eventsAbout, hx, repliesOn]

/-- The dialogue on a connection, and what was handed to the write functions. -/
theorem dialogueOver_run
    (hrun : run (serve tostringNumber) .init ls = some s)
    {c : Nat} {ctx : Sock.IxfdConnCtx} (hc : s.net.conns c = some ctx) :
    ∃ fd t,
      run (Dialogue.hear tostringNumber c) (Dialogue.begin c fd)
        (servedOn c ls) = some t ∧
      t.said = eventsAbout c s.log ∧ t.session = s.data c ∧
      Sock.submittedTo c s.net.log = repliesOn c t.said := by
  obtain ⟨ds, d, hserved⟩ := serves_run hrun
  have hd := dialogues_run hserved.daemon c
  rw [DialogueOn, hserved.serves.conn hc] at hd
  obtain ⟨fd, t, ht⟩ := hd
  refine ⟨fd, t, ?_, ?_, ht.session, ?_⟩
  · rw [← hserved.heard c]
    exact ht.heard
  · rw [ht.said, hserved.serves.log]
  · rw [ht.said, hserved.serves.log, repliesOn_eventsAbout]
    exact hserved.submitted c

/-- **Over the connection layer the daemon keeps its dialogues**: in every run,
whatever the system calls answer, however the events interleave, and up to the
first queued reply that is completed, what was logged about a connection is what is said in the
dialogue over the chunks received there, its wrapper holds the session of that
dialogue, and what was handed to `ixfd_commonsock_write` for it are exactly the
replies of that dialogue, in order. -/
theorem dialogue_over_connections
    (tostringNumber : ℚ → LuaString) (ls : List ServedLabel) (s : Served)
    (hrun : run (serve tostringNumber) .init ls = some s)
    (c : Nat) (ctx : Sock.IxfdConnCtx) (hc : s.net.conns c = some ctx) :
    ∃ fd t,
      run (Dialogue.hear tostringNumber c) (Dialogue.begin c fd)
        (servedOn c ls) = some t ∧
      t.said = eventsAbout c s.log ∧ t.session = s.data c ∧
      Sock.submittedTo c s.net.log = repliesOn c t.said :=
  dialogueOver_run hrun hc

/-- The second client is refused, and its connection closed before the reply is
written; a reply to the first one is queued, and written in two parts, with which
the run ends. -/
theorem dialogue_over_connections_two :
    ∃ s ctx,
      run (serve fun _ => bytes "0") .init
          [.accept 7 true, .accept 8 true,
            .chunk 0 (bytes "$AUTH") 3 .succeeds 1,
            .chunk 1 (bytes "execute()") 4 .succeeds 5,
            .chunk 0 (bytes "execute()") 4 .succeeds 1,
            .chunk 0 (bytes "(") 4 (.loadFails (bytes "eof")) 2,
            .writeReady 0, .drainWrite 1, .drainWrite 2] = some s ∧
        s.net.conns 0 = some ctx ∧
        ∃ fd t,
          run (Dialogue.hear (fun _ => bytes "0") 0) (Dialogue.begin 0 fd)
            [.chunk (bytes "$AUTH") 3 .succeeds,
              .chunk (bytes "execute()") 4 .succeeds,
              .chunk (bytes "(") 4 (.loadFails (bytes "eof"))] = some t ∧
          t.said = eventsAbout 0 s.log ∧ t.session = s.data 0 ∧
          Sock.submittedTo 0 s.net.log = repliesOn 0 t.said := by
  have hshown :
      ((run (serve fun _ => bytes "0") .init
          [.accept 7 true, .accept 8 true,
            .chunk 0 (bytes "$AUTH") 3 .succeeds 1,
            .chunk 1 (bytes "execute()") 4 .succeeds 5,
            .chunk 0 (bytes "execute()") 4 .succeeds 1,
            .chunk 0 (bytes "(") 4 (.loadFails (bytes "eof")) 2,
            .writeReady 0, .drainWrite 1, .drainWrite 2]).map
        fun s => (s.net.conns 0).isSome) = some true := by decide
  obtain ⟨s, hrun, hsome⟩ := Option.map_eq_some_iff.mp hshown
  obtain ⟨ctx, hc⟩ := Option.isSome_iff_exists.mp hsome
  exact ⟨s, ctx, hrun, hc,
    dialogue_over_connections (fun _ => bytes "0") _ s hrun 0 ctx hc⟩

end Runs

end Daemon
end Iojxd
