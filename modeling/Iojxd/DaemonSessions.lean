import Iojxd.DaemonHistory
import Iojxd.TransitionRun

/-!
# Sessions of the daemon

Authentication belongs to a connection.  The log of every run is in order, and a
run does to one connection exactly what the run of this connection's own labels
does to it: the two are related step by step.
-/

namespace Iojxd
namespace Daemon

open TransitionRun

/-! ## One connection alone -/

/-- The events about one connection. -/
def eventsAbout (c : Nat) (log : List Event) : List Event :=
  log.filter fun x => x.conn == c

/-- The second state is the first one with all other connections removed. -/
structure View (c : Nat) (d d' : State) : Prop where
  conn : d'.conns c = d.conns c
  kernel : ∀ fd, d'.kernel fd = if d.kernel fd = some c then some c else none
  alive : d.alive = true → d'.alive = true
  listening : d.listening = true → d'.listening = true
  envs : ∀ e ∈ d'.envs, e ∈ d.envs
  events : eventsAbout c d'.log = eventsAbout c d.log

theorem view_emit
    {c : Nat} {d d' : State} (h : View c d d') (x : Event) :
    View c (d.emit [x]) (d'.emit [x]) where
  conn := h.conn
  kernel := h.kernel
  alive := h.alive
  listening := h.listening
  envs := h.envs
  events := by
    have hev := h.events
    simp only [eventsAbout, State.emit_log, List.filter_append] at hev ⊢
    rw [hev]

theorem view_emit_other
    {c : Nat} {d d' : State} (h : View c d d') {x : Event}
    (hx : x.conn ≠ c) :
    View c (d.emit [x]) d' where
  conn := h.conn
  kernel := h.kernel
  alive := h.alive
  listening := h.listening
  envs := h.envs
  events := by
    rw [h.events]
    simp [eventsAbout, hx]

theorem view_perform
    {c : Nat} {d d' : State} (a : Action) (h : View c d d') :
    View c (perform c d a) (perform c d' a) := by
  cases hc : d.conns c with
  | none =>
      have hc' : d'.conns c = none := h.conn.trans hc
      simpa [perform, hc, hc'] using h
  | some conn =>
      have hc' : d'.conns c = some conn := h.conn.trans hc
      rw [perform_of_conns hc, perform_of_conns hc']
      apply view_emit
      cases a with
      | setData session =>
          exact
            { conn := by simp [applyAction]
              kernel := h.kernel
              alive := h.alive
              listening := h.listening
              envs := by
                intro e he
                rcases List.mem_cons.mp he with rfl | he
                · exact List.mem_cons_self
                · exact List.mem_cons_of_mem _ (h.envs e he)
              events := h.events }
      | close =>
          exact
            { conn := by simp [applyAction]
              kernel := by
                intro fd
                by_cases hfd : fd = conn.ctx.fd
                · simp [applyAction, hfd]
                · simp [applyAction, Function.update_of_ne hfd, h.kernel fd]
              alive := h.alive
              listening := h.listening
              envs := h.envs
              events := h.events }
      | closeServer =>
          exact
            { conn := h.conn
              kernel := h.kernel
              alive := h.alive
              listening := fun hl => by cases hl
              envs := h.envs
              events := h.events }
      | _ => exact h

/-- An action of another connection is invisible. -/
theorem view_perform_other
    {c e : Nat} {d d' : State} (h : View c d d') (hown : OwnsNumber e d)
    (hne : e ≠ c) (a : Action) :
    View c (perform e d a) d' := by
  cases he : d.conns e with
  | none => simpa [perform, he] using h
  | some conn =>
      rw [perform_of_conns he]
      refine view_emit_other (x := .act e a) ?_ hne
      cases a with
      | setData session =>
          exact
            { conn := by
                simp [applyAction, Function.update_of_ne (Ne.symm hne), h.conn]
              kernel := h.kernel
              alive := h.alive
              listening := h.listening
              envs := fun x hx => List.mem_cons_of_mem _ (h.envs x hx)
              events := h.events }
      | close =>
          have hfree : ¬ d.kernel conn.ctx.fd = some c := by
            intro hk
            rcases hown conn he with hk' | hk' <;> rw [hk] at hk'
            · exact hne (Option.some.inj hk').symm
            · cases hk'
          exact
            { conn := by
                simp [applyAction, Function.update_of_ne (Ne.symm hne), h.conn]
              kernel := by
                intro fd
                by_cases hfd : fd = conn.ctx.fd
                · rw [h.kernel fd]
                  simp [applyAction, hfd, hfree]
                · simp [applyAction, Function.update_of_ne hfd, h.kernel fd]
              alive := h.alive
              listening := h.listening
              envs := h.envs
              events := h.events }
      | closeServer =>
          exact
            { conn := h.conn
              kernel := h.kernel
              alive := h.alive
              listening := fun hl => by cases hl
              envs := h.envs
              events := h.events }
      | _ => exact h

theorem view_performAll
    {c : Nat} {d d' : State} (h : View c d d') (r : Handled) :
    View c (performAll c d r) (performAll c d' r) := by
  apply performAll_rel (R := View c) _ _ h
  · exact fun _ _ a h => view_perform a h
  · intro d d' error h
    have hemit := view_emit h (.raised c error)
    exact
      { conn := hemit.conn
        kernel := hemit.kernel
        alive := fun ha => by cases ha
        listening := hemit.listening
        envs := hemit.envs
        events := hemit.events }

theorem view_performAll_other
    {c e : Nat} {d d' : State} (h : View c d d') (hown : OwnsNumber e d)
    (hne : e ≠ c) (r : Handled) :
    View c (performAll e d r) d' := by
  have hall : View c (performAll e d r) d' ∧ OwnsNumber e (performAll e d r) := by
    apply performAll_invariant (I := fun d => View c d d' ∧ OwnsNumber e d)
    · rintro d ⟨h, hown⟩ a _
      exact ⟨view_perform_other h hown hne a, ownsNumber_perform hown a⟩
    · rintro d error ⟨h, hown⟩
      have hemit : View c (d.emit [.raised e error]) d' :=
        view_emit_other (x := .raised e error) h hne
      exact ⟨⟨hemit.conn, hemit.kernel, fun ha => (by cases ha),
        hemit.listening, hemit.envs, hemit.events⟩, hown⟩
    · exact ⟨h, hown⟩
  exact hall.1

section Purge

variable {tostringNumber : ℚ → LuaString} {c : Nat} {d d' t : State}

/-- A step of the connection is possible without the others. -/
theorem view_follow
    (hd : Sound d) (h : View c d d') {l : Label} (hl : l.conn = c)
    (ht : step tostringNumber d l = some t) :
    ∃ t', step tostringNumber d' l = some t' ∧ View c t t' := by
  cases l with
  | accept e fd mallocOk =>
      have he : e = c := hl
      subst he
      rcases accept_eq_some ht with ⟨hc, ha, hli, hk, hfd, rfl⟩
      have hk' : d'.kernel fd = none := by simp [h.kernel fd, hk]
      refine ⟨accept d' e fd mallocOk, ?_, ?_⟩
      · simp [step, h.conn, hc, h.alive ha, h.listening hli, hk', hfd]
      · have hemit := view_emit h (.accepted e fd)
        exact
          { conn := by simp [accept]
            kernel := by
              intro fd'
              by_cases heq : fd' = fd
              · simp [accept, heq]
              · simp [accept, Function.update_of_ne heq, h.kernel fd']
            alive := hemit.alive
            listening := hemit.listening
            envs := hemit.envs
            events := hemit.events }
  | chunk e data env ending =>
      have he : e = c := hl
      subst he
      rcases chunk_eq_some ht with
        ⟨conn, peer, hc, hp, hr, hne, hlen, henv, rfl⟩
      have hread := (readable_iff conn).mp hr
      rw [hd.linked.own e conn hc hread.2.1] at hp
      cases hp
      have hp' : d'.kernel conn.ctx.fd = some e := by
        simp [h.kernel, hd.linked.own e conn hc hread.2.1]
      have hr' : readable d' conn = true :=
        (readable_iff conn).mpr ⟨h.alive hread.1, hread.2⟩
      have henv' : env ∉ d'.envs := fun hmem => henv (h.envs env hmem)
      refine ⟨performAll e (d'.emit [.received e e data])
        (cbRead tostringNumber conn.data data env ending), ?_, ?_⟩
      · simp [step, h.conn, hc, hp', hr', hne, hlen, henv']
      · exact view_performAll (view_emit h _) _
  | eof e =>
      have he : e = c := hl
      subst he
      rcases eof_eq_some ht with ⟨conn, hc, hr, _, rfl⟩
      have hread := (readable_iff conn).mp hr
      have hp' : d'.kernel conn.ctx.fd = some e := by
        simp [h.kernel, hd.linked.own e conn hc hread.2.1]
      have hr' : readable d' conn = true :=
        (readable_iff conn).mpr ⟨h.alive hread.1, hread.2⟩
      refine ⟨performAll e d' ⟨[.delayedGc, .close], none⟩, ?_, ?_⟩
      · simp [step, h.conn, hc, hp', hr']
      · exact view_performAll h _

/-- A step of another connection is invisible. -/
theorem view_ignore
    (hd : Sound d) (h : View c d d') {l : Label} (hl : l.conn ≠ c)
    (ht : step tostringNumber d l = some t) :
    View c t d' := by
  cases l with
  | accept e fd mallocOk =>
      have hne : e ≠ c := hl
      rcases accept_eq_some ht with ⟨hc, ha, hli, hk, _, rfl⟩
      have hemit : View c (d.emit [.accepted e fd]) d' :=
        view_emit_other (x := .accepted e fd) h hne
      exact
        { conn := by
            simp [accept, Function.update_of_ne (Ne.symm hne), h.conn]
          kernel := by
            intro fd'
            by_cases heq : fd' = fd
            · simp [accept, heq, h.kernel fd, hk, hne]
            · simp [accept, Function.update_of_ne heq, h.kernel fd']
          alive := hemit.alive
          listening := hemit.listening
          envs := hemit.envs
          events := hemit.events }
  | chunk e data env ending =>
      have hne : e ≠ c := hl
      rcases chunk_spec hd.linked ht with ⟨conn, hc, hk, _, rfl, _⟩
      apply view_performAll_other _ _ hne
      · exact view_emit_other (x := .received e e data) h hne
      · intro x hx
        have hx' : d.conns e = some x := hx
        rw [hc] at hx'
        cases hx'
        exact Or.inl hk
  | eof e =>
      have hne : e ≠ c := hl
      rcases eof_eq_some ht with ⟨conn, hc, hr, _, rfl⟩
      apply view_performAll_other h _ hne
      intro x hx
      rw [hc] at hx
      cases hx
      exact Or.inl (hd.linked.own e conn hc ((readable_iff conn).mp hr).2.1)

theorem view_init (c : Nat) :
    View c .init .init where
  conn := rfl
  kernel _ := rfl
  alive h := h
  listening h := h
  envs _ h := h
  events := rfl

end Purge

/-- The refusal of a chunk that is no command. -/
def refusalOf (c : Nat) (data : List UInt8) : List Event :=
  [.received c c data,
    .act c (.write (bytes "0\nyou are not authed.")),
    .act c .delayedGc,
    .act c .close]

/-- **Authentication is per connection**: in every run the log is in order, a
chunk that is loaded has an AUTH chunk of its connection before it, and tables
of different connections are apart; what happens to a connection is what happens
to it in the run of its own labels; and a chunk of a connection without a
session, unless it is a command, is refused. -/
theorem sessions_isolated
    (tostringNumber : ℚ → LuaString) (ls : List Label) (d : State)
    (hrun : run (step tostringNumber) .init ls = some d) :
    History d.log ∧ EnvsApart d.log ∧
      (∀ before c data after,
        d.log = before ++ .act c (.load data) :: after →
        ∃ chunk, .received c c chunk ∈ before ∧
          commandOf chunk = some (bytes "AUTH")) ∧
      (∀ c, ∃ d',
        run (step tostringNumber) .init
            (ls.filter fun l => l.conn == c) = some d' ∧
          eventsAbout c d'.log = eventsAbout c d.log) ∧
      ∀ c data env ending t,
        step tostringNumber d (.chunk c data env ending) = some t →
        commandOf data = none →
        lastAuth c d.log = none →
        t.log = d.log ++ refusalOf c data := by
  have hd : Sound d :=
    run_invariant (fun _ _ _ h ht => sound_step h ht) sound_init hrun
  refine ⟨hd.history, hd.apart, ?_, ?_, ?_⟩
  · intro before c data after heq
    have hhist := hd.history
    rw [heq] at hhist
    exact hhist.auth_before_load
  · intro c
    obtain ⟨d', hrun', h⟩ : ∃ d',
        run (step tostringNumber) .init
          (ls.filter fun l => l.conn == c) = some d' ∧ View c d d' := by
      apply run_filter (I := Sound) (R := View c) _ _ _
        sound_init (view_init c) hrun
      · exact fun _ _ _ h ht => sound_step h ht
      · intro s s' l t hs h hl ht
        exact view_follow hs h (beq_iff_eq.mp hl) ht
      · intro s s' l t hs h hl ht
        exact view_ignore hs h (beq_eq_false_iff_ne.mp hl) ht
    exact ⟨d', hrun', h.events⟩
  · intro c data env ending t ht hcmd hnone
    rcases chunk_spec hd.linked ht with ⟨_, _, _, _, _, hlog⟩
    rw [hlog, hnone, cbRead_refused tostringNumber none env ending rfl hcmd]
    rfl

/-- A number used by an authenticated connection is reused by one that is not:
its chunk is refused. -/
theorem sessions_isolated_reused_number :
    ∃ d,
      run (step fun _ => bytes "0") .init
          [.accept 0 7 true, .chunk 0 (bytes "$AUTH") 3 .succeeds,
            .chunk 0 (bytes "execute()") 4 .succeeds, .eof 0,
            .accept 1 7 true] = some d ∧
        lastAuth 0 d.log = some ⟨true, 3⟩ ∧
        History d.log ∧
        ∀ t, step (fun _ => bytes "0") d
            (.chunk 1 (bytes "execute()") 4 .succeeds) = some t →
          t.log = d.log ++ refusalOf 1 (bytes "execute()") := by
  have hsessions :
      (run (step fun _ => bytes "0") .init
          [.accept 0 7 true, .chunk 0 (bytes "$AUTH") 3 .succeeds,
            .chunk 0 (bytes "execute()") 4 .succeeds, .eof 0,
            .accept 1 7 true]).map
        (fun d => (lastAuth 0 d.log, lastAuth 1 d.log)) =
      some (some ⟨true, 3⟩, none) := by decide
  rcases Option.map_eq_some_iff.mp hsessions with ⟨d, hrun, hlast⟩
  rcases Prod.mk.inj hlast with ⟨hzero, hone⟩
  have h := sessions_isolated (fun _ => bytes "0") _ d hrun
  refine ⟨d, hrun, hzero, h.1, fun t ht => ?_⟩
  exact h.2.2.2.2 1 _ _ _ t ht (by decide) hone

end Daemon
end Iojxd
