import Iojxd.DaemonSessions

/-!
# The dialogue over a connection

What the daemon does on one connection is a dialogue: the session is none at
first, each chunk is answered by the handler with the session of the chunks
before it, and the dialogue is over when the handler closes the connection or
raises an error, or at the end of file.  Over any number of connections the
daemon keeps one dialogue on each.  Between the connections only EXIT acts: from
any client, it stops the daemon accepting.
-/

namespace Iojxd
namespace Daemon

open TransitionRun
open Sock (closeCtx)

/-! ## Dialogues -/

/-- What the daemon hears on a connection; a chunk comes with the table that
AUTH would make and the way it ends if it is loaded. -/
inductive Heard where
  | chunk (data : List UInt8) (env : Nat) (ending : ChunkEnd)
  | eof

/-- A dialogue: its session, whether it goes on, and what was said. -/
structure Dialogue where
  session : Option SessionData
  goesOn : Bool
  said : List Event

/-- The session after some actions. -/
def sessionOf (session : Option SessionData) (actions : List Action) :
    Option SessionData :=
  actions.foldl
    (fun session a =>
      match a with
      | .setData new => some new
      | _ => session)
    session

/-- The handler has neither closed the connection nor raised an error. -/
def staysOpen (r : Handled) : Bool :=
  r.error.isNone && !r.actions.contains .close

section Dialogue

variable (tostringNumber : ℚ → LuaString) (c : Nat)

/-- What is said in reply. -/
def Dialogue.reply (t : Dialogue) : Heard → Handled
  | .chunk data env ending => cbRead tostringNumber t.session data env ending
  | .eof => ⟨[.delayedGc, .close], none⟩

/-- The chunk itself, in the log. -/
def Heard.said : Heard → List Event
  | .chunk data _ _ => [.received c c data]
  | .eof => []

def Dialogue.after (t : Dialogue) (x : Heard) : Dialogue where
  session := sessionOf t.session (t.reply tostringNumber x).actions
  goesOn := staysOpen (t.reply tostringNumber x)
  said := t.said ++ x.said c ++ eventsOf c (t.reply tostringNumber x)

/-- The dialogue goes on by what is heard; `none` where it is over. -/
def Dialogue.hear (t : Dialogue) (x : Heard) : Option Dialogue :=
  if t.goesOn then some (t.after tostringNumber c x) else none

end Dialogue

/-- The dialogue on a connection that was accepted. -/
def Dialogue.begin (c : Nat) (fd : Int) : Dialogue where
  session := none
  goesOn := true
  said := [.accepted c fd]

/-- What is heard on a connection, among the labels. -/
def heardOn (c : Nat) (ls : List Label) : List Heard :=
  ls.filterMap fun
    | .chunk c' data env ending =>
        if c' = c then some (.chunk data env ending) else none
    | .eof c' => if c' = c then some .eof else none
    | .accept _ _ _ => none

theorem heardOn_append (c : Nat) (ls ls' : List Label) :
    heardOn c (ls ++ ls') = heardOn c ls ++ heardOn c ls' :=
  List.filterMap_append

/-! ## The handler and its connection -/

section Handler

variable {c : Nat} {d : State}

/-- What the actions of the handler leave of its connection. -/
structure Answered (r : Handled) (conn conn' : Conn) (d t : State) : Prop where
  data : conn'.data = sessionOf conn.data r.actions
  active : conn'.ctx.eventRead.active =
    (conn.ctx.eventRead.active && !r.actions.contains .close)
  alive : t.alive = (d.alive && r.error.isNone)
  listening : t.listening =
    (d.listening && !r.actions.contains .closeServer)

/-- One action on the connection. -/
theorem perform_conn {conn : Conn} (h : d.conns c = some conn) (a : Action) :
    ∃ conn', (perform c d a).conns c = some conn' ∧
      Answered ⟨[a], none⟩ conn conn' d (perform c d a) := by
  rw [perform_of_conns h]
  cases a with
  | setData session =>
      exact ⟨{ conn with data := some session }, Function.update_self ..,
        ⟨rfl, by simp, by simp [applyAction], by simp [applyAction]⟩⟩
  | close =>
      exact ⟨{ conn with ctx := closeCtx conn.ctx }, Function.update_self ..,
        ⟨rfl, by simp [closeCtx, Sock.EvIo.stop], by simp [applyAction],
          by simp [applyAction]⟩⟩
  | _ =>
      exact ⟨conn, h, ⟨rfl, by simp, by simp [applyAction],
        by simp [applyAction]⟩⟩

theorem performAll_conn
    {conn : Conn} (h : d.conns c = some conn) (r : Handled) :
    ∃ conn', (performAll c d r).conns c = some conn' ∧
      Answered r conn conn' d (performAll c d r) := by
  have hfold : ∀ (as : List Action) (d : State) conn,
      d.conns c = some conn →
      ∃ conn', (as.foldl (perform c) d).conns c = some conn' ∧
        Answered ⟨as, none⟩ conn conn' d (as.foldl (perform c) d) := by
    intro as
    induction as with
    | nil => exact fun d conn h => ⟨conn, h, ⟨rfl, by simp, by simp, by simp⟩⟩
    | cons a as ih =>
        intro d conn h
        obtain ⟨conn', h', ha⟩ := perform_conn h a
        obtain ⟨conn'', h'', has⟩ := ih _ _ h'
        refine ⟨conn'', h'', ?_, ?_, ?_, ?_⟩
        · rw [has.data, ha.data]
          rfl
        · rw [has.active, ha.active]
          simp [Bool.and_assoc, eq_comm]
        · rw [List.foldl_cons, has.alive, ha.alive]
          simp
        · rw [List.foldl_cons, has.listening, ha.listening]
          simp [Bool.and_assoc, eq_comm]
  obtain ⟨conn', h', has⟩ := hfold r.actions d conn h
  unfold performAll
  cases herror : r.error with
  | none =>
      exact ⟨conn', h', ⟨has.data, has.active,
        by simpa [herror] using has.alive, has.listening⟩⟩
  | some error =>
      exact ⟨conn', h', ⟨has.data, has.active, by simp [herror],
        has.listening⟩⟩

/-- Other connections stay as they are. -/
theorem performAll_other
    {e : Nat} (hne : e ≠ c) (r : Handled) :
    (performAll c d r).conns e = d.conns e ∧
      ((performAll c d r).alive = true → d.alive = true) := by
  refine performAll_invariant (c := c)
    (I := fun t => t.conns e = d.conns e ∧ (t.alive = true → d.alive = true))
    ?_ ?_ ⟨rfl, id⟩
  · rintro t ⟨ht, halive⟩ a _
    cases hc : t.conns c with
    | none => simpa [perform, hc] using ⟨ht, halive⟩
    | some conn =>
        obtain ⟨conn', hp⟩ := performed hc a
        obtain ⟨_, _, hanswered⟩ := perform_conn hc a
        refine ⟨?_, ?_⟩
        · rw [hp.conns, Function.update_of_ne hne]
          exact ht
        · rw [hanswered.alive]
          simpa using halive
  · rintro t error ⟨ht, _⟩
    exact ⟨ht, fun h => by cases h⟩

end Handler

/-! ## One dialogue for each connection -/

/-- The dialogue on `c` that the labels so far amount to. -/
structure Speaks (tostringNumber : ℚ → LuaString) (c : Nat) (ls : List Label)
    (d : State) (conn : Conn) (fd : Int) (t : Dialogue) : Prop where
  heard : run (Dialogue.hear tostringNumber c) (Dialogue.begin c fd)
    (heardOn c ls) = some t
  said : t.said = eventsAbout c d.log
  session : t.session = conn.data
  goesOn : d.alive = true → t.goesOn = conn.ctx.eventRead.active

/-- A connection has its dialogue; before the accept nothing was heard or
said. -/
def DialogueOn (tostringNumber : ℚ → LuaString) (ls : List Label) (d : State)
    (c : Nat) : Prop :=
  match d.conns c with
  | none => heardOn c ls = [] ∧ eventsAbout c d.log = []
  | some conn => ∃ fd t, Speaks tostringNumber c ls d conn fd t

section Steps

variable {tostringNumber : ℚ → LuaString} {c : Nat} {d t : State}
variable {ls : List Label}

theorem eventsAbout_append (c : Nat) (as bs : List Event) :
    eventsAbout c (as ++ bs) = eventsAbout c as ++ eventsAbout c bs :=
  List.filter_append ..

theorem eventsAbout_of_all
    {es : List Event} (h : ∀ x ∈ es, x.conn = c) : eventsAbout c es = es := by
  apply List.filter_eq_self.mpr
  intro x hx
  rw [h x hx]
  exact beq_self_eq_true c

theorem eventsAbout_of_none
    {es : List Event} (h : ∀ x ∈ es, x.conn ≠ c) : eventsAbout c es = [] := by
  apply List.filter_eq_nil_iff.mpr
  intro x hx
  simpa using h x hx

theorem conn_of_mem_eventsOf
    {r : Handled} {x : Event} (hx : x ∈ eventsOf c r) : x.conn = c := by
  simp only [eventsOf, List.mem_append, List.mem_map] at hx
  rcases hx with ⟨a, _, rfl⟩ | hx
  · rfl
  · split at hx
    · cases hx
    · rw [List.mem_singleton.mp hx]
      rfl

/-- The handler answers what was heard on its connection. -/
theorem speaks_answer
    {conn : Conn} {fd : Int} {talk : Dialogue} {l : Label} {x : Heard}
    (h : Speaks tostringNumber c ls d conn fd talk)
    (hc : d.conns c = some conn) (halive : d.alive = true)
    (hactive : conn.ctx.eventRead.active = true)
    (hl : heardOn c [l] = [x])
    (ht : t = performAll c (d.emit (x.said c)) (talk.reply tostringNumber x)) :
    ∃ conn' talk', t.conns c = some conn' ∧
      Speaks tostringNumber c (ls ++ [l]) t conn' fd talk' := by
  have hc' : (d.emit (x.said c)).conns c = some conn := hc
  obtain ⟨conn', hconn', hanswered⟩ :=
    performAll_conn hc' (talk.reply tostringNumber x)
  have hgoes : talk.goesOn = true := (h.goesOn halive).trans hactive
  refine ⟨conn', talk.after tostringNumber c x, ht ▸ hconn', ?_, ?_, ?_, ?_⟩
  · rw [heardOn_append, hl, run_append, h.heard, Option.bind_some, run_cons,
      Dialogue.hear, if_pos hgoes]
    rfl
  · have hx : eventsAbout c (x.said c) = x.said c := by
      apply eventsAbout_of_all
      cases x with
      | chunk data env ending => simp [Heard.said, Event.conn]
      | eof => simp [Heard.said]
    rw [ht, log_performAll hc', State.emit_log, eventsAbout_append,
      eventsAbout_append, ← h.said, hx,
      eventsAbout_of_all (fun _ => conn_of_mem_eventsOf)]
    rfl
  · rw [hanswered.data, ← h.session]
    rfl
  · intro hlive
    rw [ht, hanswered.alive, Bool.and_eq_true] at hlive
    rw [hanswered.active, hactive, Bool.true_and, Dialogue.after, staysOpen,
      hlive.2, Bool.true_and]

/-- A step of another connection changes nothing in the dialogue. -/
theorem dialogue_other
    {e : Nat} {l : Label} (h : DialogueOn tostringNumber ls d e)
    (hl : heardOn e [l] = []) (hconns : t.conns e = d.conns e)
    (halive : t.alive = true → d.alive = true)
    (hlog : eventsAbout e t.log = eventsAbout e d.log) :
    DialogueOn tostringNumber (ls ++ [l]) t e := by
  unfold DialogueOn at h ⊢
  rw [hconns, heardOn_append, hl, List.append_nil, hlog]
  cases hc : d.conns e with
  | none =>
      rw [hc] at h
      exact h
  | some conn =>
      rw [hc] at h
      obtain ⟨fd, talk, htalk⟩ := h
      refine ⟨fd, talk, ?_, ?_, htalk.session, ?_⟩
      · rw [heardOn_append, hl, List.append_nil]
        exact htalk.heard
      · rw [hlog]
        exact htalk.said
      · exact fun hlive => htalk.goesOn (halive hlive)

/-- A step in which the handler answers on `c`. -/
theorem dialogues_answer
    {conn : Conn} {l : Label} {x : Heard}
    (h : ∀ e, DialogueOn tostringNumber ls d e) (hc : d.conns c = some conn)
    (hr : readable d conn = true) (hl : heardOn c [l] = [x])
    (hother : ∀ e, e ≠ c → heardOn e [l] = [])
    (ht : ∀ talk : Dialogue, talk.session = conn.data →
      t = performAll c (d.emit (x.said c)) (talk.reply tostringNumber x))
    (e : Nat) :
    DialogueOn tostringNumber (ls ++ [l]) t e := by
  obtain ⟨halive, hactive, -⟩ := (readable_iff conn).mp hr
  have hself := h c
  rw [DialogueOn, hc] at hself
  obtain ⟨fd, talk, htalk⟩ := hself
  have ht := ht talk htalk.session
  by_cases he : e = c
  · subst he
    obtain ⟨conn', talk', hc', htalk'⟩ :=
      speaks_answer htalk hc halive hactive hl ht
    rw [DialogueOn, hc']
    exact ⟨fd, talk', htalk'⟩
  · obtain ⟨hconns, hlive⟩ := performAll_other (c := c)
      (d := d.emit (x.said c)) he (talk.reply tostringNumber x)
    rw [← ht] at hconns hlive
    apply dialogue_other (h e) (hother e he) hconns hlive
    have hc' : (d.emit (x.said c)).conns c = some conn := hc
    have hreply : eventsAbout e
        (eventsOf c (talk.reply tostringNumber x)) = [] := by
      apply eventsAbout_of_none
      intro y hy
      rw [conn_of_mem_eventsOf hy]
      exact Ne.symm he
    have hheard : eventsAbout e (x.said c) = [] := by
      apply eventsAbout_of_none
      intro y hy
      cases x with
      | eof => cases hy
      | chunk data env ending =>
          rw [List.mem_singleton.mp hy]
          exact Ne.symm he
    rw [ht, log_performAll hc', State.emit_log, eventsAbout_append,
      eventsAbout_append, hheard, hreply, List.append_nil, List.append_nil]

theorem dialogues_step
    {l : Label} (hd : Sound d) (h : ∀ e, DialogueOn tostringNumber ls d e)
    (ht : step tostringNumber d l = some t) :
    ∀ e, DialogueOn tostringNumber (ls ++ [l]) t e := by
  cases l with
  | accept c fd mallocOk =>
      obtain ⟨hc, -, -, -, -, rfl⟩ := accept_eq_some ht
      intro e
      by_cases he : e = c
      · subst he
        have hself := h e
        rw [DialogueOn, hc] at hself
        have hnew : (accept d e fd mallocOk).conns e =
            some ⟨Sock.activateCtx
              (Sock.ixfdCommonsockCreateCtx tcpBaseSock fd mallocOk), none⟩ :=
          Function.update_self ..
        rw [DialogueOn, hnew]
        refine ⟨fd, Dialogue.begin e fd, ?_, ?_, rfl, fun _ => rfl⟩
        · rw [heardOn_append, hself.1]
          rfl
        · change _ = eventsAbout e (d.log ++ [.accepted e fd])
          rw [eventsAbout_append, hself.2]
          simp [eventsAbout, Event.conn, Dialogue.begin]
      · have haccepted : eventsAbout e [.accepted c fd] = [] := by
          apply eventsAbout_of_none
          intro x hx
          rw [List.mem_singleton.mp hx]
          exact Ne.symm he
        refine dialogue_other (t := accept d c fd mallocOk) (h e) rfl
          (Function.update_of_ne he _ _) id ?_
        change eventsAbout e (d.log ++ [.accepted c fd]) = _
        rw [eventsAbout_append, haccepted, List.append_nil]
  | chunk c data env ending =>
      obtain ⟨conn, peer, hc, hp, hr, -, -, -, heq⟩ := chunk_eq_some ht
      have hk := hd.linked.own c conn hc ((readable_iff conn).mp hr).2.1
      rw [hk] at hp
      cases hp
      refine dialogues_answer (x := .chunk data env ending) h hc hr ?_ ?_ ?_
      · simp [heardOn]
      · intro e he
        simp [heardOn, Ne.symm he]
      · intro talk hsession
        rw [heq, ← hsession]
        rfl
  | eof c =>
      obtain ⟨conn, hc, hr, -, heq⟩ := eof_eq_some ht
      refine dialogues_answer (x := .eof) h hc hr ?_ ?_ ?_
      · simp [heardOn]
      · intro e he
        simp [heardOn, Ne.symm he]
      · intro talk _
        rw [heq]
        have hemit : d.emit (Heard.eof.said c) = d := by
          simp [State.emit, Heard.said]
        rw [hemit]
        rfl

end Steps

theorem dialogues_run
    {tostringNumber : ℚ → LuaString} {ls : List Label} {d : State}
    (hrun : run (step tostringNumber) .init ls = some d) (c : Nat) :
    DialogueOn tostringNumber ls d c := by
  induction ls using List.reverseRecOn generalizing d c with
  | nil =>
      rw [run_nil] at hrun
      cases hrun
      exact ⟨rfl, rfl⟩
  | append_singleton ls l ih =>
      rw [run_append] at hrun
      obtain ⟨m, hm, hlast⟩ := Option.bind_eq_some_iff.mp hrun
      obtain ⟨t, ht, hend⟩ := run_cons_success _ hlast
      cases hend
      have hsound : Sound m :=
        run_invariant (fun _ _ _ h ht => sound_step h ht) sound_init hm
      exact dialogues_step hsound (ih hm) ht c

/-- **The daemon keeps one dialogue on each connection**: in every run, what was
logged about a connection is what is said in the dialogue over what was heard on
it, whatever happened on the others; nothing is heard after the dialogue is
over, the session of the connection is that of the dialogue, and while the
daemon lives the connection is read exactly if the dialogue goes on. -/
theorem dialogue_of_run
    (tostringNumber : ℚ → LuaString) (ls : List Label) (d : State)
    (hrun : run (step tostringNumber) .init ls = some d)
    (c : Nat) (conn : Conn) (hc : d.conns c = some conn) :
    ∃ fd t,
      run (Dialogue.hear tostringNumber c) (Dialogue.begin c fd)
        (heardOn c ls) = some t ∧
      t.said = eventsAbout c d.log ∧ t.session = conn.data ∧
      (d.alive = true → t.goesOn = conn.ctx.eventRead.active) := by
  have h := dialogues_run hrun c
  rw [DialogueOn, hc] at h
  obtain ⟨fd, t, ht⟩ := h
  exact ⟨fd, t, ht.heard, ht.said, ht.session, ht.goesOn⟩

/-- Two clients at a time; the first one authenticates, runs a chunk and hangs
up, the second one is refused. -/
theorem dialogue_of_run_two :
    ∃ d conn,
      run (step fun _ => bytes "0") .init
          [.accept 0 7 true, .accept 1 8 true,
            .chunk 0 (bytes "$AUTH") 3 .succeeds,
            .chunk 1 (bytes "execute()") 4 .succeeds,
            .chunk 0 (bytes "execute()") 4 .succeeds, .eof 0] = some d ∧
        d.conns 0 = some conn ∧
        ∃ fd t,
          run (Dialogue.hear (fun _ => bytes "0") 0) (Dialogue.begin 0 fd)
            [.chunk (bytes "$AUTH") 3 .succeeds,
              .chunk (bytes "execute()") 4 .succeeds, .eof] = some t ∧
          t.said = eventsAbout 0 d.log ∧ t.session = conn.data := by
  have hshown :
      ((run (step fun _ => bytes "0") .init
          [.accept 0 7 true, .accept 1 8 true,
            .chunk 0 (bytes "$AUTH") 3 .succeeds,
            .chunk 1 (bytes "execute()") 4 .succeeds,
            .chunk 0 (bytes "execute()") 4 .succeeds,
            .eof 0]).map fun d => (d.conns 0).isSome) = some true := by decide
  obtain ⟨d, hrun, hsome⟩ := Option.map_eq_some_iff.mp hshown
  obtain ⟨conn, hc⟩ := Option.isSome_iff_exists.mp hsome
  obtain ⟨fd, t, ht, hsaid, hsession, -⟩ :=
    dialogue_of_run (fun _ => bytes "0") _ d hrun 0 conn hc
  exact ⟨d, conn, hrun, hc, fd, t, ht, hsaid, hsession⟩

/-! ## EXIT -/

section Exit

variable {tostringNumber : ℚ → LuaString}

/-- The handler closes the server for EXIT only, with or without a session. -/
theorem closeServer_mem_cbRead_iff
    (session : Option SessionData) (chunk : List UInt8) (env : Nat)
    (ending : ChunkEnd) :
    .closeServer ∈ (cbRead tostringNumber session chunk env ending).actions ↔
      commandOf chunk = some (bytes "EXIT") := by
  cases hcmd : commandOf chunk with
  | some cmd =>
      rw [cbRead_command tostringNumber session env ending hcmd]
      unfold executeCmd commands
      by_cases hauth : cmd = bytes "AUTH"
      · simp [hauth, bytes]
      · by_cases hexit : cmd = bytes "EXIT"
        · have hne : bytes "EXIT" ≠ bytes "AUTH" := by decide
          simp [hexit, hne]
        · simp [hauth, hexit]
  | none =>
      cases hs : isAuthed session with
      | false =>
          rw [cbRead_refused tostringNumber session env ending hs hcmd]
          simp
      | true =>
          rcases session with _ | ⟨_ | _, context⟩
          · cases hs
          · cases hs
          · rw [cbRead_chunk tostringNumber env ending context hcmd]
            cases ending with
            | loadFails msg => simp [runChunk]
            | succeeds => simp [runChunk]
            | raises value =>
                cases hv : value.concatOperand tostringNumber with
                | none => simp [runChunk, hv]
                | some result => simp [runChunk, hv]

/-- A client has sent EXIT. -/
def ExitReceived (log : List Event) : Prop :=
  ∃ c chunk, .received c c chunk ∈ log ∧ commandOf chunk = some (bytes "EXIT")

/-- The first event is not the end of the server, or the second no accept. -/
def NoAcceptAfterClose (x y : Event) : Prop :=
  ∀ c c' fd, x = .act c .closeServer → y ≠ .accepted c' fd

structure Exits (d : State) : Prop where
  received : d.listening = false ↔ ExitReceived d.log
  closed : d.listening = false ↔ ∃ c, .act c .closeServer ∈ d.log
  order : d.log.Pairwise NoAcceptAfterClose

theorem exitReceived_append (log log' : List Event) :
    ExitReceived (log ++ log') ↔ ExitReceived log ∨ ExitReceived log' := by
  constructor
  · rintro ⟨c, chunk, hmem, hcmd⟩
    rcases List.mem_append.mp hmem with hmem | hmem
    · exact Or.inl ⟨c, chunk, hmem, hcmd⟩
    · exact Or.inr ⟨c, chunk, hmem, hcmd⟩
  · rintro (⟨c, chunk, hmem, hcmd⟩ | ⟨c, chunk, hmem, hcmd⟩)
    · exact ⟨c, chunk, List.mem_append_left _ hmem, hcmd⟩
    · exact ⟨c, chunk, List.mem_append_right _ hmem, hcmd⟩

/-- What the handler logs keeps the server as its actions say. -/
theorem Exits.answer
    {d t : State} {es : List Event} (h : Exits d) (hlog : t.log = d.log ++ es)
    (hnone : ∀ c fd, .accepted c fd ∉ es)
    (hlistening : t.listening = false ↔
      d.listening = false ∨ ExitReceived es)
    (hclosed : ExitReceived es ↔ ∃ c, .act c .closeServer ∈ es) :
    Exits t where
  received := by
    rw [hlistening, hlog, exitReceived_append, h.received]
  closed := by
    rw [hlistening, h.closed, hclosed, hlog]
    simp only [List.mem_append, exists_or]
  order := by
    rw [hlog, List.pairwise_append]
    refine ⟨h.order, ?_, ?_⟩
    · apply List.pairwise_of_forall_mem_list
      rintro x - y hy c c' fd - rfl
      exact hnone c' fd hy
    · rintro x - y hy c c' fd - rfl
      exact hnone c' fd hy

theorem accepted_notMem_eventsOf (c : Nat) (r : Handled) (e : Nat) (fd : Int) :
    .accepted e fd ∉ eventsOf c r := by
  intro hmem
  simp only [eventsOf, List.mem_append, List.mem_map] at hmem
  rcases hmem with ⟨a, _, ha⟩ | hmem
  · cases ha
  · split at hmem
    · cases hmem
    · cases List.mem_singleton.mp hmem

theorem closeServer_mem_eventsOf_iff (c : Nat) (r : Handled) :
    (∃ e, .act e .closeServer ∈ eventsOf c r) ↔ .closeServer ∈ r.actions := by
  constructor
  · rintro ⟨e, hmem⟩
    simp only [eventsOf, List.mem_append, List.mem_map] at hmem
    rcases hmem with ⟨a, ha, heq⟩ | hmem
    · cases heq
      exact ha
    · split at hmem
      · cases hmem
      · cases List.mem_singleton.mp hmem
  · intro hmem
    exact ⟨c, List.mem_append_left _ (List.mem_map_of_mem hmem)⟩

theorem not_exitReceived_eventsOf (c : Nat) (r : Handled) :
    ¬ ExitReceived (eventsOf c r) := by
  rintro ⟨e, chunk, hmem, _⟩
  simp only [eventsOf, List.mem_append, List.mem_map] at hmem
  rcases hmem with ⟨a, _, ha⟩ | hmem
  · cases ha
  · split at hmem
    · cases hmem
    · cases List.mem_singleton.mp hmem

/-- Whether the server still listens after the handler. -/
theorem listening_performAll
    {c : Nat} {d : State} {conn : Conn} (h : d.conns c = some conn)
    (r : Handled) :
    (performAll c d r).listening = false ↔
      d.listening = false ∨ .closeServer ∈ r.actions := by
  obtain ⟨_, _, hanswered⟩ := performAll_conn h r
  rw [hanswered.listening]
  cases d.listening <;> simp

theorem exits_step
    {d t : State} {l : Label} (hd : Sound d) (h : Exits d)
    (ht : step tostringNumber d l = some t) :
    Exits t := by
  cases l with
  | accept c fd mallocOk =>
      obtain ⟨-, -, hlistening, -, -, rfl⟩ := accept_eq_some ht
      have hopen : ¬ ∃ c, .act c .closeServer ∈ d.log := by
        rw [← h.closed, hlistening]
        exact Bool.noConfusion
      have hlog : (accept d c fd mallocOk).log =
          d.log ++ [.accepted c fd] := rfl
      constructor
      · rw [hlog, exitReceived_append, ← h.received]
        change d.listening = false ↔ _
        simp [ExitReceived]
      · rw [hlog]
        change d.listening = false ↔ _
        rw [h.closed]
        simp
      · rw [hlog, List.pairwise_append]
        refine ⟨h.order, List.pairwise_singleton _ _, ?_⟩
        rintro x hx y - e e' fd' rfl
        exact absurd ⟨e, hx⟩ hopen
  | chunk c data env ending =>
      obtain ⟨conn, hc, -, -, heq, hlog⟩ := chunk_spec hd.linked ht
      have hc' : (d.emit [.received c c data]).conns c = some conn := hc
      have hreceived : ExitReceived (.received c c data :: eventsOf c
          (cbRead tostringNumber (lastAuth c d.log) data env ending)) ↔
          commandOf data = some (bytes "EXIT") := by
        rw [← List.singleton_append, exitReceived_append,
          or_iff_left (not_exitReceived_eventsOf _ _)]
        simp [ExitReceived]
      apply h.answer hlog
      · intro e fd hmem
        rcases List.mem_cons.mp hmem with heq | hmem
        · cases heq
        · exact accepted_notMem_eventsOf _ _ _ _ hmem
      · rw [hreceived, heq, listening_performAll hc',
          closeServer_mem_cbRead_iff]
        rfl
      · rw [hreceived, ← closeServer_mem_cbRead_iff (lastAuth c d.log) data env
          ending, ← closeServer_mem_eventsOf_iff c]
        simp only [List.mem_cons, reduceCtorEq, false_or]
        rfl
  | eof c =>
      obtain ⟨conn, hc, -, -, heq⟩ := eof_eq_some ht
      apply h.answer (heq ▸ log_performAll hc _)
      · exact fun e fd => accepted_notMem_eventsOf _ _ _ _
      · rw [heq, listening_performAll hc,
          or_iff_left (not_exitReceived_eventsOf _ _)]
        simp
      · rw [closeServer_mem_eventsOf_iff]
        simp [not_exitReceived_eventsOf]

/-- **EXIT is for every client and for good**: in every run the server has
stopped listening exactly if some client, with a session or without, has sent
EXIT, and no connection is accepted after the server was closed. -/
theorem exit_stops_accepting
    (tostringNumber : ℚ → LuaString) (ls : List Label) (d : State)
    (hrun : run (step tostringNumber) .init ls = some d) :
    (d.listening = false ↔ ExitReceived d.log) ∧
      d.log.Pairwise NoAcceptAfterClose := by
  have hend : Sound d ∧ Exits d := by
    refine run_invariant (I := fun d => Sound d ∧ Exits d) ?_ ?_ hrun
    · rintro s l t ⟨hsound, hs⟩ ht
      exact ⟨sound_step hsound ht, exits_step hsound hs ht⟩
    · refine ⟨sound_init, ?_, ?_, List.Pairwise.nil⟩
      · simp [State.init, ExitReceived]
      · simp [State.init]
  exact ⟨hend.2.received, hend.2.order⟩

/-- A client without a session ends the server while another one is served. -/
theorem exit_stops_accepting_unauthed :
    ∃ d,
      run (step fun _ => bytes "0") .init
          [.accept 0 7 true, .accept 1 8 true,
            .chunk 1 (bytes "$EXIT") 3 .succeeds,
            .chunk 0 (bytes "$AUTH") 4 .succeeds] = some d ∧
        (d.listening = false ↔ ExitReceived d.log) ∧
        d.log.Pairwise NoAcceptAfterClose := by
  obtain ⟨d, hd⟩ := Option.isSome_iff_exists.mp
    (by decide : (run (step fun _ => bytes "0") .init
      [.accept 0 7 true, .accept 1 8 true,
        .chunk 1 (bytes "$EXIT") 3 .succeeds,
        .chunk 0 (bytes "$AUTH") 4 .succeeds]).isSome = true)
  exact ⟨d, hd, exit_stops_accepting _ _ d hd⟩

end Exit

end Daemon
end Iojxd
