import Iojxd.DaemonModel
import Iojxd.SockRuns

/-!
# The log of the daemon

Every event of the log is in order: a chunk is loaded only with a session, it
runs in the environment of the most recent AUTH of its connection, AUTH is
handled for a chunk of that connection, and every chunk comes from the
connection of its context although descriptor numbers are used again.  The
invariant links contexts, sessions, numbers and tables to the log.
-/

namespace Iojxd
namespace Daemon

/-- The session made by the most recent AUTH since the accept. -/
def sessionAfter (c : Nat) (session : Option SessionData) :
    Event → Option SessionData
  | .accepted c' _ => if c' = c then none else session
  | .act c' (.setData new) => if c' = c then some new else session
  | _ => session

def lastAuth (c : Nat) (log : List Event) : Option SessionData :=
  log.foldl (sessionAfter c) none

/-- An event is in order after the events before it. -/
def Justified (before : List Event) : Event → Prop
  | .accepted c _ => ∀ x ∈ before, x.conn ≠ c
  | .received c peer _ => peer = c ∧ ∃ fd, .accepted c fd ∈ before
  | .act c (.load _) => ∃ env, lastAuth c before = some ⟨true, env⟩
  | .act c (.run _ env) => lastAuth c before = some ⟨true, env⟩
  | .act c (.setData session) =>
      session.authed = true ∧
        ∃ earlier chunk,
          before = earlier ++
            [.received c c chunk, .act c (.write (bytes "1"))] ∧
          commandOf chunk = some (bytes "AUTH")
  | _ => True

/-- Every event of the log is in order. -/
def History (log : List Event) : Prop :=
  ∀ before x after, log = before ++ x :: after → Justified before x

/-- Two AUTH events of different connections made different tables. -/
def EnvsApart (log : List Event) : Prop :=
  ∀ c c' session session',
    .act c (.setData session) ∈ log →
    .act c' (.setData session') ∈ log →
    session.context = session'.context →
    c = c'

/-! ## Logs -/

theorem lastAuth_append (c : Nat) (as bs : List Event) :
    lastAuth c (as ++ bs) = bs.foldl (sessionAfter c) (lastAuth c as) := by
  exact List.foldl_append

/-- Events of other connections do not change the session. -/
theorem lastAuth_append_other
    {c : Nat} (as : List Event) {bs : List Event}
    (h : ∀ x ∈ bs, x.conn ≠ c) :
    lastAuth c (as ++ bs) = lastAuth c as := by
  rw [lastAuth_append]
  induction bs with
  | nil => rfl
  | cons x bs ih =>
      have hx : x.conn ≠ c := h x List.mem_cons_self
      have hkeep : ∀ session, sessionAfter c session x = session := by
        intro session
        cases x with
        | accepted c' fd => exact if_neg hx
        | received c' peer chunk => rfl
        | raised c' error => rfl
        | act c' action =>
            cases action with
            | setData new => exact if_neg hx
            | _ => rfl
      rw [List.foldl_cons, hkeep]
      exact ih fun y hy => h y (List.mem_cons_of_mem _ hy)

/-- The new events are in order one after the other. -/
def JustifiedFrom (before : List Event) : List Event → Prop
  | [] => True
  | x :: xs => Justified before x ∧ JustifiedFrom (before ++ [x]) xs

theorem history_concat
    {log : List Event} {x : Event}
    (h : History log) (hx : Justified log x) :
    History (log ++ [x]) := by
  intro before y after heq
  rcases List.eq_nil_or_concat after with rfl | ⟨after', z, rfl⟩
  · rcases List.append_inj' heq rfl with ⟨rfl, hxy⟩
    cases hxy
    exact hx
  · have heq' : log ++ [x] = (before ++ y :: after') ++ [z] := by
      simpa using heq
    rcases List.append_inj' heq' rfl with ⟨hlog, _⟩
    exact h before y after' hlog

theorem history_append
    {log es : List Event}
    (h : History log) (hes : JustifiedFrom log es) :
    History (log ++ es) := by
  induction es generalizing log with
  | nil => simpa using h
  | cons x es ih =>
      rw [List.append_cons]
      exact ih (history_concat h hes.1) hes.2

theorem History.left
    {as bs : List Event} (h : History (as ++ bs)) :
    History as := by
  intro before x after heq
  apply h before x (after ++ bs)
  rw [heq]
  simp

/-- A session comes from an AUTH event. -/
theorem setData_mem_of_lastAuth
    {c : Nat} {log : List Event} {session : SessionData}
    (h : lastAuth c log = some session) :
    .act c (.setData session) ∈ log := by
  induction log using List.reverseRecOn with
  | nil => cases h
  | append_singleton log x ih =>
      rw [lastAuth_append, List.foldl_cons, List.foldl_nil] at h
      have hold : lastAuth c log = some session →
          .act c (.setData session) ∈ log ++ [x] :=
        fun h => List.mem_append_left _ (ih h)
      cases x with
      | accepted c' fd =>
          simp only [sessionAfter] at h
          split at h
          · cases h
          · exact hold h
      | received c' peer chunk => exact hold h
      | raised c' error => exact hold h
      | act c' action =>
          cases action with
          | setData new =>
              simp only [sessionAfter] at h
              split at h
              · rename_i hc
                cases h
                rw [hc]
                exact List.mem_append_right _ (List.mem_singleton.mpr rfl)
              · exact hold h
          | _ => exact hold h

/-- **A session comes from an AUTH chunk** of the same connection. -/
theorem History.exists_auth
    {c : Nat} {log : List Event} {session : SessionData}
    (h : History log) (hlast : lastAuth c log = some session) :
    ∃ chunk,
      .received c c chunk ∈ log ∧ commandOf chunk = some (bytes "AUTH") := by
  rcases List.append_of_mem (setData_mem_of_lastAuth hlast) with
    ⟨before, after, heq⟩
  rcases h before _ after heq with ⟨_, earlier, chunk, hbefore, hcmd⟩
  refine ⟨chunk, ?_, hcmd⟩
  rw [heq, hbefore]
  simp

/-- A chunk that is loaded has an AUTH chunk of its connection before it. -/
theorem History.auth_before_load
    {c : Nat} {before after : List Event} {data : LuaString}
    (h : History (before ++ .act c (.load data) :: after)) :
    ∃ chunk,
      .received c c chunk ∈ before ∧
        commandOf chunk = some (bytes "AUTH") := by
  rcases h before _ after rfl with ⟨env, hlast⟩
  exact h.left.exists_auth hlast

/-! ## What the handler logs -/

section Handler

variable (tostringNumber : ℚ → LuaString)
variable {log : List Event} {c : Nat} {data : List UInt8}
variable {env : Nat} {ending : ChunkEnd}

/-- The events of the handler are in order when it is given the session of its
connection. -/
theorem justifiedFrom_cbRead
    (hacc : ∃ fd, .accepted c fd ∈ log) :
    JustifiedFrom log (.received c c data ::
      eventsOf c
        (cbRead tostringNumber (lastAuth c log) data env ending)) := by
  refine ⟨⟨rfl, hacc⟩, ?_⟩
  have hsession : lastAuth c (log ++ [Event.received c c data]) =
      lastAuth c log := by
    rw [lastAuth_append]
    rfl
  cases hcmd : commandOf data with
  | some cmd =>
      rw [cbRead_command tostringNumber _ env ending hcmd]
      unfold executeCmd commands
      by_cases hauth : cmd = bytes "AUTH"
      · subst hauth
        refine ⟨trivial, ⟨rfl, log, data, ?_, hcmd⟩, trivial⟩
        simp
      · by_cases hexit : cmd = bytes "EXIT"
        · simp [hexit, show bytes "EXIT" ≠ bytes "AUTH" by decide, eventsOf,
            JustifiedFrom, Justified]
        · simp [hauth, hexit, eventsOf, JustifiedFrom, Justified]
  | none =>
      cases hs : isAuthed (lastAuth c log) with
      | false =>
          rw [cbRead_refused tostringNumber _ env ending hs hcmd]
          simp [eventsOf, JustifiedFrom, Justified]
      | true =>
          obtain ⟨context, hlast⟩ :
              ∃ context, lastAuth c log = some ⟨true, context⟩ := by
            rcases hl : lastAuth c log with _ | ⟨_ | _, context⟩
            · simp [hl, isAuthed] at hs
            · simp [hl, isAuthed] at hs
            · exact ⟨context, rfl⟩
          rw [hlast] at hsession ⊢
          rw [cbRead_chunk tostringNumber env ending context hcmd]
          have hload : lastAuth c
              (log ++ [Event.received c c data] ++
                [Event.act c (.load (cString data))]) =
              some ⟨true, context⟩ := by
            rw [lastAuth_append, hsession]
            rfl
          cases ending with
          | loadFails msg =>
              exact ⟨⟨context, hsession⟩, trivial, trivial⟩
          | succeeds =>
              exact ⟨⟨context, hsession⟩, hload, trivial, trivial⟩
          | raises value =>
              cases hv : value.concatOperand tostringNumber with
              | none =>
                  simp only [runChunk, hv]
                  exact ⟨⟨context, hsession⟩, hload, trivial, trivial⟩
              | some result =>
                  simp only [runChunk, hv]
                  exact ⟨⟨context, hsession⟩, hload, trivial, trivial⟩

/-- A table that the handler stores is the new one. -/
theorem setData_mem_cbRead
    {session : Option SessionData} {new : SessionData}
    (h : .act c (.setData new) ∈
      eventsOf c (cbRead tostringNumber session data env ending)) :
    new = ⟨true, env⟩ := by
  cases hcmd : commandOf data with
  | some cmd =>
      rw [cbRead_command tostringNumber _ env ending hcmd] at h
      unfold executeCmd commands at h
      by_cases hauth : cmd = bytes "AUTH"
      · simpa [hauth, eventsOf] using h
      · by_cases hexit : cmd = bytes "EXIT"
        · simp [hexit, show bytes "EXIT" ≠ bytes "AUTH" by decide,
            eventsOf] at h
        · simp [hauth, hexit, eventsOf] at h
  | none =>
      rcases session with _ | ⟨_ | _, context⟩
      · rw [cbRead_refused tostringNumber none env ending rfl hcmd] at h
        simp [eventsOf] at h
      · rw [cbRead_refused tostringNumber _ env ending rfl hcmd] at h
        simp [eventsOf] at h
      · rw [cbRead_chunk tostringNumber env ending context hcmd] at h
        unfold runChunk at h
        cases ending with
        | loadFails msg => simp [eventsOf] at h
        | succeeds => simp [eventsOf] at h
        | raises value =>
            cases hv : value.concatOperand tostringNumber with
            | none => simp [eventsOf, hv] at h
            | some result => simp [eventsOf, hv] at h

end Handler

/-! ## The invariant -/

/-- Contexts, sessions, numbers and tables agree with the log. -/
structure Linked (d : State) : Prop where
  own : ∀ c conn, d.conns c = some conn →
    conn.ctx.eventRead.active = true → d.kernel conn.ctx.fd = some c
  data : ∀ c conn, d.conns c = some conn → conn.data = lastAuth c d.log
  accepted : ∀ c conn, d.conns c = some conn →
    ∃ fd, .accepted c fd ∈ d.log
  known : ∀ x ∈ d.log, d.conns x.conn ≠ none
  envs : ∀ c session, .act c (.setData session) ∈ d.log →
    session.context ∈ d.envs

/-- Closing the context takes its number from nobody else. -/
def OwnsNumber (c : Nat) (d : State) : Prop :=
  ∀ conn, d.conns c = some conn →
    d.kernel conn.ctx.fd = some c ∨ d.kernel conn.ctx.fd = none

theorem ownsNumber_perform
    {c : Nat} {d : State} (h : OwnsNumber c d) (a : Action) :
    OwnsNumber c (perform c d a) := by
  cases hc : d.conns c with
  | none => simpa [perform, hc] using h
  | some conn =>
      rcases performed hc a with ⟨conn', hp⟩
      intro x hx
      rw [hp.conns, Function.update_self] at hx
      cases hx
      rw [hp.fd]
      rcases hp.kernel with ⟨hk, _⟩ | ⟨hk, _⟩
      · rw [hk]
        exact h conn hc
      · rw [hk, Function.update_self]
        exact Or.inr rfl

theorem linked_perform
    {c : Nat} {d : State} (h : Linked d) (hown : OwnsNumber c d)
    (a : Action) :
    Linked (perform c d a) := by
  cases hc : d.conns c with
  | none => simpa [perform, hc] using h
  | some conn =>
      rcases performed hc a with ⟨conn', hp⟩
      have hother : ∀ e x, e ≠ c → (perform c d a).conns e = some x →
          d.conns e = some x := by
        intro e x hne hx
        rwa [hp.conns, Function.update_of_ne hne] at hx
      have hself : ∀ x, (perform c d a).conns c = some x → x = conn' := by
        intro x hx
        rw [hp.conns, Function.update_self] at hx
        exact (Option.some.inj hx).symm
      constructor
      case own =>
          intro e x hx hactive
          by_cases he : e = c
          · subst he
            rw [hself x hx] at hactive ⊢
            rcases hp.kernel with ⟨hk, hread⟩ | ⟨_, hread⟩
            · rw [hk, hp.fd]
              exact h.own e conn hc (hread ▸ hactive)
            · rw [hread] at hactive
              cases hactive
          · have hold := h.own e x (hother e x he hx) hactive
            rcases hp.kernel with ⟨hk, _⟩ | ⟨hk, _⟩
            · rw [hk]
              exact hold
            · -- the number that is closed is not the one of `e`
              have hfd : x.ctx.fd ≠ conn.ctx.fd := by
                intro heq
                rw [heq] at hold
                rcases hown conn hc with hk' | hk' <;> rw [hk'] at hold
                · exact he (Option.some.inj hold).symm
                · cases hold
              rw [hk, Function.update_of_ne hfd]
              exact hold
      case data =>
          intro e x hx
          rw [hp.log]
          by_cases he : e = c
          · subst he
            rw [hself x hx, hp.data, lastAuth_append, h.data e conn hc]
            cases a with
            | setData session => simp [sessionAfter]
            | _ => rfl
          · rw [lastAuth_append_other]
            · exact h.data e x (hother e x he hx)
            · intro y hy
              rw [List.mem_singleton.mp hy]
              exact Ne.symm he
      case accepted =>
          intro e x hx
          rw [hp.log]
          obtain ⟨y, hy⟩ : ∃ y, d.conns e = some y := by
            by_cases he : e = c
            · exact ⟨conn, he ▸ hc⟩
            · exact ⟨x, hother e x he hx⟩
          rcases h.accepted e y hy with ⟨fd, hfd⟩
          exact ⟨fd, List.mem_append_left _ hfd⟩
      case known =>
          intro x hx
          rw [hp.conns]
          by_cases he : x.conn = c
          · rw [he, Function.update_self]
            simp
          · rw [Function.update_of_ne he]
            rw [hp.log] at hx
            rcases List.mem_append.mp hx with hx | hx
            · exact h.known x hx
            · rw [List.mem_singleton.mp hx] at he
              exact absurd rfl he
      case envs =>
          intro e session hmem
          rw [hp.log] at hmem
          rcases List.mem_append.mp hmem with hmem | hmem
          · exact hp.envs _ (h.envs e session hmem)
          · cases List.mem_singleton.mp hmem
            exact hp.stored session rfl

/-- An event of a known context that makes no session. -/
theorem linked_emit
    {d : State} (h : Linked d) {x : Event}
    (hknown : d.conns x.conn ≠ none)
    (hkeep : ∀ c session, sessionAfter c session x = session)
    (hset : ∀ c session, x ≠ .act c (.setData session)) :
    Linked (d.emit [x]) where
  own := h.own
  data c conn hc := by
    rw [State.emit_log, lastAuth_append, List.foldl_cons, hkeep]
    exact h.data c conn hc
  accepted c conn hc := by
    rcases h.accepted c conn hc with ⟨fd, hfd⟩
    exact ⟨fd, List.mem_append_left _ hfd⟩
  known y hy := by
    rcases List.mem_append.mp hy with hy | hy
    · exact h.known y hy
    · rw [List.mem_singleton.mp hy]
      exact hknown
  envs c session hmem := by
    rcases List.mem_append.mp hmem with hmem | hmem
    · exact h.envs c session hmem
    · exact absurd (List.mem_singleton.mp hmem).symm (hset c session)

theorem linked_performAll
    {c : Nat} {d : State} (h : Linked d) (hown : OwnsNumber c d)
    (hc : d.conns c ≠ none) (r : Handled) :
    Linked (performAll c d r) := by
  have hall : Linked (performAll c d r) ∧ OwnsNumber c (performAll c d r) ∧
      (performAll c d r).conns c ≠ none := by
    apply performAll_invariant
      (I := fun d => Linked d ∧ OwnsNumber c d ∧ d.conns c ≠ none)
    · rintro d ⟨hd, hown, hc⟩ a _
      refine ⟨linked_perform hd hown a, ownsNumber_perform hown a, ?_⟩
      rcases Option.ne_none_iff_exists'.mp hc with ⟨conn, hconn⟩
      rcases performed hconn a with ⟨conn', hp⟩
      rw [hp.conns, Function.update_self]
      simp
    · rintro d error ⟨hd, hown, hc⟩
      have hraised : Linked (d.emit [.raised c error]) :=
        linked_emit hd hc (fun _ _ => rfl) (by simp)
      exact ⟨⟨hraised.own, hraised.data, hraised.accepted, hraised.known,
        hraised.envs⟩, hown, hc⟩
    · exact ⟨h, hown, hc⟩
  exact hall.1

structure Sound (d : State) : Prop where
  linked : Linked d
  history : History d.log
  apart : EnvsApart d.log

theorem sound_init :
    Sound .init where
  linked :=
    { own := by simp [State.init]
      data := by simp [State.init]
      accepted := by simp [State.init]
      known := by simp [State.init]
      envs := by simp [State.init] }
  history := by
    intro before x after h
    simp [State.init] at h
  apart := by simp [EnvsApart, State.init]

theorem sound_accept
    {d : State} (h : Sound d) {c : Nat} {fd : Int} (mallocOk : Bool)
    (hc : d.conns c = none) (hfd : d.kernel fd = none) :
    Sound (accept d c fd mallocOk) := by
  have hfresh : ∀ x ∈ d.log, x.conn ≠ c := by
    intro x hx heq
    exact h.linked.known x hx (heq ▸ hc)
  have hother : ∀ e x, e ≠ c → (accept d c fd mallocOk).conns e = some x →
      d.conns e = some x := by
    intro e x hne hx
    rwa [accept, State.emit_conns, State.setConn_conns,
      Function.update_of_ne hne] at hx
  have hself : ∀ x, (accept d c fd mallocOk).conns c = some x →
      x.ctx.fd = fd ∧ x.data = none := by
    intro x hx
    rw [accept, State.emit_conns, State.setConn_conns,
      Function.update_self] at hx
    cases hx
    exact ⟨Sock.createCtx_fd tcpBaseSock fd mallocOk, rfl⟩
  constructor
  case linked =>
      constructor
      case own =>
          intro e x hx hactive
          change Function.update d.kernel fd (some c) x.ctx.fd = some e
          by_cases he : e = c
          · subst he
            rw [(hself x hx).1, Function.update_self]
          · have hold := h.linked.own e x (hother e x he hx) hactive
            have hne : x.ctx.fd ≠ fd := by
              intro heq
              rw [heq, hfd] at hold
              cases hold
            rw [Function.update_of_ne hne]
            exact hold
      case data =>
          intro e x hx
          change x.data = lastAuth e (d.log ++ [Event.accepted c fd])
          by_cases he : e = c
          · subst he
            rw [(hself x hx).2, lastAuth_append]
            simp [sessionAfter]
          · rw [lastAuth_append_other]
            · exact h.linked.data e x (hother e x he hx)
            · intro y hy
              rw [List.mem_singleton.mp hy]
              exact Ne.symm he
      case accepted =>
          intro e x hx
          by_cases he : e = c
          · exact ⟨fd, List.mem_append_right _ (by simp [he])⟩
          · rcases h.linked.accepted e x (hother e x he hx) with ⟨fd', hfd'⟩
            exact ⟨fd', List.mem_append_left _ hfd'⟩
      case known =>
          intro x hx
          rw [accept, State.emit_conns, State.setConn_conns]
          by_cases he : x.conn = c
          · rw [he, Function.update_self]
            simp
          · rw [Function.update_of_ne he]
            rcases List.mem_append.mp hx with hx | hx
            · exact h.linked.known x hx
            · rw [List.mem_singleton.mp hx] at he
              exact absurd rfl he
      case envs =>
          intro e session hmem
          rcases List.mem_append.mp hmem with hmem | hmem
          · exact h.linked.envs e session hmem
          · cases List.mem_singleton.mp hmem
  case history => exact history_concat h.history hfresh
  case apart =>
      intro e e' session session' hm hm' heq
      rcases List.mem_append.mp hm with hm | hm
      · rcases List.mem_append.mp hm' with hm' | hm'
        · exact h.apart e e' session session' hm hm' heq
        · cases List.mem_singleton.mp hm'
      · cases List.mem_singleton.mp hm
section Steps

variable {tostringNumber : ℚ → LuaString} {d t : State} {c : Nat}

/-- The context that a chunk reaches is that of its own connection, and the
step logs the chunk and what the handler does with it. -/
theorem chunk_spec
    (h : Linked d) {data : List UInt8} {env : Nat} {ending : ChunkEnd}
    (ht : step tostringNumber d (.chunk c data env ending) = some t) :
    ∃ conn,
      d.conns c = some conn ∧
      d.kernel conn.ctx.fd = some c ∧
      env ∉ d.envs ∧
      t = performAll c (d.emit [.received c c data])
        (cbRead tostringNumber (lastAuth c d.log) data env ending) ∧
      t.log = d.log ++ (.received c c data :: eventsOf c
        (cbRead tostringNumber (lastAuth c d.log) data env ending)) := by
  rcases chunk_eq_some ht with
    ⟨conn, peer, hc, hp, hr, _, _, henv, heq⟩
  have hk := h.own c conn hc ((readable_iff conn).mp hr).2.1
  rw [hk] at hp
  cases hp
  rw [h.data c conn hc] at heq
  refine ⟨conn, hc, hk, henv, heq, ?_⟩
  have hc' : (d.emit [.received c c data]).conns c = some conn := hc
  rw [heq, log_performAll hc']
  simp

theorem sound_chunk
    (h : Sound d) {data : List UInt8} {env : Nat} {ending : ChunkEnd}
    (ht : step tostringNumber d (.chunk c data env ending) = some t) :
    Sound t := by
  rcases chunk_spec h.linked ht with ⟨conn, hc, hk, henv, heq, hlog⟩
  have hsome : d.conns c ≠ none := by simp [hc]
  constructor
  case linked =>
      rw [heq]
      apply linked_performAll
      · exact linked_emit h.linked hsome (fun _ _ => rfl) (by simp)
      · intro x hx
        have hx' : d.conns c = some x := hx
        rw [hc] at hx'
        cases hx'
        exact Or.inl hk
      · exact hsome
  case history =>
      rw [hlog]
      exact history_append h.history
        (justifiedFrom_cbRead tostringNumber (h.linked.accepted c conn hc))
  case apart =>
      -- the only new table is `env`, which no connection had before
      have hnew : ∀ e session, .act e (.setData session) ∈ t.log →
          .act e (.setData session) ∈ d.log ∨
            (e = c ∧ session = ⟨true, env⟩) := by
        intro e session hmem
        rw [hlog] at hmem
        rcases List.mem_append.mp hmem with hmem | hmem
        · exact Or.inl hmem
        · rcases List.mem_cons.mp hmem with heq | hmem
          · cases heq
          · have he : e = c := by
              rcases List.mem_append.mp hmem with hmem | hmem
              · rcases List.mem_map.mp hmem with ⟨a, _, ha⟩
                cases ha
                rfl
              · split at hmem
                · cases hmem
                · cases List.mem_singleton.mp hmem
            subst he
            exact Or.inr ⟨rfl, setData_mem_cbRead tostringNumber hmem⟩
      intro e e' session session' hm hm' hctx
      rcases hnew e session hm with hm | ⟨rfl, rfl⟩ <;>
      rcases hnew e' session' hm' with hm' | ⟨rfl, rfl⟩
      · exact h.apart e e' session session' hm hm' hctx
      · have hmem := h.linked.envs e session hm
        rw [hctx] at hmem
        exact absurd hmem henv
      · have hmem := h.linked.envs e' session' hm'
        rw [← hctx] at hmem
        exact absurd hmem henv
      · rfl

theorem sound_eof
    (h : Sound d) (ht : step tostringNumber d (.eof c) = some t) :
    Sound t := by
  rcases eof_eq_some ht with ⟨conn, hc, hr, _, heq⟩
  have hsome : d.conns c ≠ none := by simp [hc]
  have hlog : t.log =
      d.log ++ [Event.act c .delayedGc, Event.act c .close] := by
    rw [heq, log_performAll hc]
    simp [eventsOf]
  constructor
  case linked =>
      rw [heq]
      apply linked_performAll h.linked _ hsome
      intro x hx
      rw [hc] at hx
      cases hx
      exact Or.inl (h.linked.own c conn hc ((readable_iff conn).mp hr).2.1)
  case history =>
      rw [hlog]
      exact history_append h.history ⟨trivial, trivial, trivial⟩
  case apart =>
      have hold : ∀ e session, .act e (.setData session) ∈ t.log →
          .act e (.setData session) ∈ d.log := by
        intro e session hmem
        rw [hlog] at hmem
        simpa using hmem
      intro e e' session session' hm hm'
      exact h.apart e e' session session' (hold e session hm)
        (hold e' session' hm')

theorem sound_step
    {l : Label} (h : Sound d) (ht : step tostringNumber d l = some t) :
    Sound t := by
  cases l with
  | accept c fd mallocOk =>
      rcases accept_eq_some ht with ⟨hc, _, _, hk, _, rfl⟩
      exact sound_accept h mallocOk hc hk
  | chunk c data env ending => exact sound_chunk h ht
  | eof c => exact sound_eof h ht

end Steps

end Daemon
end Iojxd
