import Iojxd.SockRuns

/-!
# What a step of the connection layer leaves alone

Every step acts on at most one context: the one its label names, the new one, or
the one that the code on top of the stack goes on to use.  All others keep their
fields, and no frame that goes on to use them is pushed.
-/

namespace Iojxd
namespace Sock

open TransitionRun

/-- The context that the code below a callback uses once it has returned. -/
def Frame.resumes : Frame → Option Nat
  | .drain c => some c
  | .drainDone c _ => some c
  | .acceptDone c => some c
  | .closeDone c => some c
  | _ => none

/-- The context that a step acts on. -/
def actsOn (s : Net) : Label → Option Nat
  | .write c _ _ _ _ => some c
  | .read c _ _ => some c
  | .close c => some c
  | .setBufreadLen c _ _ => some c
  | .accept _ _ => some s.nextConn
  | .readReady c _ => some c
  | .writeReady c => some c
  | _ => s.stack.head?.bind Frame.resumes

/-- The context is left alone. -/
structure Spares (s t : Net) (d : Nat) : Prop where
  conns : t.conns d = s.conns d
  stack : ∀ frame ∈ t.stack, frame.resumes = some d → frame ∈ s.stack

namespace Spares

variable {s m : Net} {c d : Nat}

theorem refl (s : Net) (d : Nat) :
    Spares s s d where
  conns := rfl
  stack _ h _ := h

/-- Only the contexts and the stack matter. -/
theorem congr
    (h : Spares s m d) {t : Net}
    (hconns : t.conns = m.conns) (hstack : t.stack = m.stack) :
    Spares s t d where
  conns := by
    rw [hconns]
    exact h.conns
  stack := by
    rw [hstack]
    exact h.stack

theorem setConn
    (h : Spares s m d) (hd : d ≠ c) (ctx : IxfdConnCtx) :
    Spares s (m.setConn c ctx) d where
  conns := by
    rw [Net.setConn_conns, Function.update_of_ne hd]
    exact h.conns
  stack := h.stack

theorem push
    (h : Spares s m d) (frame : Frame) (hframe : frame.resumes ≠ some d) :
    Spares s (m.withStack (frame :: s.stack)) d where
  conns := h.conns
  stack := by
    intro x hx hresumes
    rcases List.mem_cons.mp hx with rfl | hold
    · exact absurd hresumes hframe
    · exact hold

theorem pop
    {frame : Frame} {stack : List Frame} (hstack : s.stack = frame :: stack)
    (d : Nat) :
    Spares s (s.withStack stack) d where
  conns := rfl
  stack := by
    intro x hx _
    rw [hstack]
    exact List.mem_cons_of_mem _ hx

theorem close
    (h : Spares s m d) (hd : d ≠ c) (ctx : IxfdConnCtx) :
    Spares s (ixfdCommonsockClose m c ctx) d :=
  (h.setConn hd (closeCtx ctx)).congr rfl rfl

end Spares

section Steps

variable {s : Net} {c d : Nat}

theorem spares_write
    (hd : d ≠ c) (ctx : IxfdConnCtx) (data : Buffer) (cb : Option Nat)
    (args : Nat) (ret : Int) :
    Spares s (ixfdCommonsockWrite s c ctx data cb args ret) d := by
  have hsame := Spares.refl s d
  by_cases hlt : toSizeT ret < data.bytes.length
  · rw [write_queued _ _ _ _ _ _ hlt]
    exact (hsame.setConn hd _).congr rfl rfl
  · rw [write_complete _ _ _ _ _ _ hlt]
    cases cb with
    | none => exact hsame.congr rfl rfl
    | some f =>
        have hpush := hsame.push (.writeDone s.calls)
          (by simp [Frame.resumes])
        exact hpush.congr rfl rfl

theorem spares_writeCbIter
    (hd : d ≠ c) (ctx : IxfdConnCtx) (w : IxfdSockWriteCtx)
    (rest : List IxfdSockWriteCtx) (ret : Int) :
    Spares s (ixfdCommonsockWriteCbIter s c ctx w rest ret) d := by
  have hsame := Spares.refl s d
  by_cases hlt : toSizeT ret < w.lenRemain
  · rw [writeCbIter_advanced _ _ _ _ _ hlt]
    exact (hsame.setConn hd _).congr rfl rfl
  · rw [writeCbIter_complete _ _ _ _ _ hlt]
    have hset := hsame.setConn hd { ctx with bufWrite := rest }
    rcases w.cb with _ | f
    · exact hset.congr rfl rfl
    · have hpush := hset.push (.drainDone c w.call)
        (by simp [Frame.resumes, Ne.symm hd])
      exact hpush.congr rfl rfl

theorem spares_read
    (hd : d ≠ c) (ctx : IxfdConnCtx) (ret : ReadRet) :
    Spares s (ixfdCommonsockRead s c ctx ret) d := by
  have hread : Spares s
      (s.emit [.read c ctx.fd (s.kernel ctx.fd)]) d :=
    (Spares.refl s d).congr rfl rfl
  rcases ret with _ | _ | _
  · exact hread
  · exact hread.close hd ctx
  · exact hread

theorem spares_readCb
    (hd : d ≠ c) (sock : IxfdSock) (ctx : IxfdConnCtx) (ret : ReadRet) :
    Spares s (ixfdCommonsockReadCb sock s c ctx ret) d := by
  have hsame := Spares.refl s d
  have hread : Spares s (s.emit [.read c ctx.fd (s.kernel ctx.fd)]) d :=
    hsame.congr rfl rfl
  have hdone : Spares s (s.withStack (.readDone c :: s.stack)) d :=
    hsame.push _ (by simp [Frame.resumes])
  have hclosing : Spares s (s.withStack (.closeDone c :: s.stack)) d :=
    hsame.push _ (by simp [Frame.resumes, Ne.symm hd])
  unfold ixfdCommonsockReadCb
  split
  · exact hdone
  · rcases ret with _ | _ | ⟨b, bs⟩
    · exact hread
    · simp only
      split
      · exact hclosing.congr rfl rfl
      · exact hread.close hd ctx
    · simp only
      split
      · exact hdone.congr rfl rfl
      · exact hread

theorem spares_acceptCb
    (hd : d ≠ s.nextConn) (sock : IxfdSock) (fd : Int) (mallocOk : Bool) :
    Spares s (ixfdCommonsockAcceptCb sock s fd mallocOk) d := by
  have hsame := Spares.refl s d
  unfold ixfdCommonsockAcceptCb
  split
  · have hpush := (hsame.setConn hd
      (ixfdCommonsockCreateCtx sock fd mallocOk)).push
        (.acceptDone s.nextConn) (by simp [Frame.resumes, Ne.symm hd])
    exact hpush.congr rfl rfl
  · have hset := hsame.setConn hd
      (activateCtx (ixfdCommonsockCreateCtx sock fd mallocOk))
    exact hset.congr rfl rfl

/-- The context of the frame on top is another one. -/
theorem ne_of_head
    {frame : Frame} {stack : List Frame} (hstack : s.stack = frame :: stack)
    (hd : s.stack.head?.bind Frame.resumes ≠ some d)
    (hresumes : frame.resumes = some c) :
    d ≠ c := by
  rintro rfl
  rw [hstack, List.head?_cons, Option.bind_some] at hd
  exact hd hresumes

theorem spares_afterCallback
    {t : Net} (hd : s.stack.head?.bind Frame.resumes ≠ some d)
    (h : afterCallback s = some t) :
    Spares s t d := by
  unfold afterCallback at h
  split at h
  case h_1 j stack hstack =>
      cases h
      exact (Spares.pop hstack d).congr rfl rfl
  case h_2 c j stack hstack =>
      cases h
      exact (Spares.pop hstack d).congr rfl rfl
  case h_3 c stack hstack =>
      obtain ⟨ctx, _, rfl⟩ := Option.map_eq_some_iff.mp h
      exact (Spares.pop hstack d).setConn (ne_of_head hstack hd rfl) _
  case h_4 c stack hstack =>
      cases h
      exact Spares.pop hstack d
  case h_5 c stack hstack =>
      obtain ⟨ctx, _, rfl⟩ := Option.map_eq_some_iff.mp h
      exact (Spares.pop hstack d).close (ne_of_head hstack hd rfl) ctx
  case h_6 => cases h

/-- **Frame rule**: a step leaves every context alone but the one it acts on. -/
theorem spares_step
    {sock : IxfdSock} {t : Net} {l : Label}
    (hd : actsOn s l ≠ some d) (h : step sock s l = some t) :
    Spares s t d := by
  have hother : ∀ {e : Nat}, actsOn s l = some e → d ≠ e := by
    rintro e he rfl
    exact hd he
  cases l with
  | write c data cb args ret =>
      obtain ⟨ctx, _, _, rfl⟩ := onConn_eq_some h
      exact spares_write (hother rfl) ctx data cb args ret
  | read c len ret =>
      obtain ⟨ctx, _, _, rfl⟩ := onConn_eq_some h
      exact spares_read (hother rfl) ctx ret
  | close c =>
      obtain ⟨ctx, _, _, rfl⟩ := onConn_eq_some h
      exact (Spares.refl s d).close (hother rfl) ctx
  | setBufreadLen c len mallocOk =>
      obtain ⟨ctx, _, _, rfl⟩ := onConn_eq_some h
      exact (Spares.refl s d).setConn (hother rfl) _
  | callbackReturns => exact spares_afterCallback hd h
  | accept fd mallocOk =>
      obtain ⟨_, _, rfl⟩ := accept_eq_some h
      exact spares_acceptCb (hother rfl) sock fd mallocOk
  | readReady c ret =>
      obtain ⟨ctx, _, _, rfl⟩ := onConn_eq_some h
      exact spares_readCb (hother rfl) sock ctx ret
  | writeReady c =>
      obtain ⟨ctx, _, _, rfl⟩ := onConn_eq_some h
      have hne : c ≠ d := Ne.symm (hother rfl)
      exact (Spares.refl s d).push _ (by simp [Frame.resumes, hne])
  | drainWrite ret =>
      obtain ⟨c, stack, ctx, w, rest, hstack, _, _, _, rfl⟩ :=
        drainWrite_eq_some h
      exact spares_writeCbIter (ne_of_head hstack hd rfl) ctx w rest ret
  | drainEnd =>
      obtain ⟨c, stack, ctx, hstack, _, _, rfl⟩ := drainEnd_eq_some h
      exact (Spares.pop hstack d).setConn (ne_of_head hstack hd rfl) _

end Steps

/-! ## The stack -/

/-- The callbacks that are entered from the event loop. -/
def Frame.ofEvent : Frame → Bool
  | .acceptDone _ => true
  | .readDone _ => true
  | .closeDone _ => true
  | _ => false

/-- A step leaves the stack, enters a frame or leaves one.  The callbacks of the
event loop are entered on an empty stack, and `cb_close` only for context
`closing`. -/
inductive StackMove (closing : Option Nat) (s t : List Frame) : Prop
  | same (h : t = s)
  | push {frame : Frame} (h : t = frame :: s)
      (hevent : frame.ofEvent = true → s = [])
      (hclose : ∀ c, frame = .closeDone c → closing = some c)
  | pop {frame : Frame} (h : s = frame :: t)

/-- The context that a step may enter `cb_close` for. -/
def closingOf : Label → Option Nat
  | .readReady c (.data _) => some c
  | _ => none

/-- Callbacks of the event loop have nothing below them. -/
def EventsBelow (stack : List Frame) : Prop :=
  ∀ above frame below, stack = above ++ frame :: below →
    frame.ofEvent = true → below = []

theorem EventsBelow.move
    {closing : Option Nat} {s t : List Frame}
    (h : EventsBelow s) (hmove : StackMove closing s t) :
    EventsBelow t := by
  intro above frame below heq hevent
  cases hmove with
  | same hsame => exact h above frame below (hsame ▸ heq) hevent
  | push hpush htop _ =>
      rw [hpush] at heq
      cases above with
      | nil =>
          rw [List.nil_append, List.cons.injEq] at heq
          rw [← heq.2]
          exact htop (heq.1 ▸ hevent)
      | cons top above =>
          rw [List.cons_append, List.cons.injEq] at heq
          exact h above frame below heq.2 hevent
  | @pop top hpop =>
      apply h (top :: above) frame below _ hevent
      rw [hpop, heq, List.cons_append]

/-- A new close callback is one of context `closing`. -/
theorem StackMove.closing
    {closing : Option Nat} {s t : List Frame} {c : Nat}
    (hmove : StackMove closing s t) (hc : .closeDone c ∈ t) :
    .closeDone c ∈ s ∨ closing = some c := by
  cases hmove with
  | same hsame => exact Or.inl (hsame ▸ hc)
  | push hpush _ hclose =>
      rw [hpush] at hc
      rcases List.mem_cons.mp hc with hnew | hold
      · exact Or.inr (hclose c hnew.symm)
      · exact Or.inl hold
  | pop hpop =>
      rw [hpop]
      exact Or.inl (List.mem_cons_of_mem _ hc)

section StackSteps

variable {s t : Net}

theorem stackMove_write
    (c : Nat) (ctx : IxfdConnCtx) (data : Buffer) (cb : Option Nat)
    (args : Nat) (ret : Int) :
    StackMove none s.stack
      (ixfdCommonsockWrite s c ctx data cb args ret).stack := by
  by_cases hlt : toSizeT ret < data.bytes.length
  · rw [write_queued _ _ _ _ _ _ hlt]
    exact .same rfl
  · rw [write_complete _ _ _ _ _ _ hlt]
    cases cb with
    | none => exact .same rfl
    | some f => exact .push rfl (by simp [Frame.ofEvent]) (by simp)

theorem stackMove_writeCbIter
    (c : Nat) (ctx : IxfdConnCtx) (w : IxfdSockWriteCtx)
    (rest : List IxfdSockWriteCtx) (ret : Int) :
    StackMove none s.stack
      (ixfdCommonsockWriteCbIter s c ctx w rest ret).stack := by
  by_cases hlt : toSizeT ret < w.lenRemain
  · rw [writeCbIter_advanced _ _ _ _ _ hlt]
    exact .same rfl
  · rw [writeCbIter_complete _ _ _ _ _ hlt]
    rcases w.cb with _ | f
    · exact .same rfl
    · exact .push rfl (by simp [Frame.ofEvent]) (by simp)

theorem stackMove_readCb
    (sock : IxfdSock) (c : Nat) (ctx : IxfdConnCtx) (ret : ReadRet)
    (hstack : s.stack = []) :
    StackMove (closingOf (.readReady c ret)) s.stack
      (ixfdCommonsockReadCb sock s c ctx ret).stack := by
  unfold ixfdCommonsockReadCb
  split
  · exact .push rfl (fun _ => hstack) (by simp)
  · rcases ret with _ | _ | ⟨b, bs⟩
    · exact .same rfl
    · dsimp only
      split
      · exact .push rfl (fun _ => hstack) (by simp [closingOf])
      · exact .same rfl
    · dsimp only
      split
      · exact .push rfl (fun _ => hstack) (by simp)
      · exact .same rfl

theorem stackMove_acceptCb
    (sock : IxfdSock) (fd : Int) (mallocOk : Bool) (hstack : s.stack = []) :
    StackMove none s.stack
      (ixfdCommonsockAcceptCb sock s fd mallocOk).stack := by
  unfold ixfdCommonsockAcceptCb
  dsimp only
  split
  · exact .push rfl (fun _ => hstack) (by simp)
  · exact .same rfl

theorem stackMove_afterCallback (h : afterCallback s = some t) :
    StackMove none s.stack t.stack := by
  unfold afterCallback at h
  split at h
  case h_1 j stack hstack =>
      cases h
      exact .pop hstack
  case h_2 c j stack hstack =>
      cases h
      exact .pop hstack
  case h_3 c stack hstack =>
      obtain ⟨ctx, _, rfl⟩ := Option.map_eq_some_iff.mp h
      exact .pop hstack
  case h_4 c stack hstack =>
      cases h
      exact .pop hstack
  case h_5 c stack hstack =>
      obtain ⟨ctx, _, rfl⟩ := Option.map_eq_some_iff.mp h
      exact .pop hstack
  case h_6 => cases h

/-- What a step does to the stack. -/
theorem stackMove_step
    {sock : IxfdSock} {l : Label} (h : step sock s l = some t) :
    StackMove (closingOf l) s.stack t.stack := by
  cases l with
  | write c data cb args ret =>
      obtain ⟨ctx, _, _, rfl⟩ := onConn_eq_some h
      exact stackMove_write c ctx data cb args ret
  | read c len ret =>
      obtain ⟨ctx, _, _, rfl⟩ := onConn_eq_some h
      rcases ret with _ | _ | ⟨b, bs⟩ <;> exact .same rfl
  | close c =>
      obtain ⟨ctx, _, _, rfl⟩ := onConn_eq_some h
      exact .same rfl
  | setBufreadLen c len mallocOk =>
      obtain ⟨ctx, _, _, rfl⟩ := onConn_eq_some h
      exact .same rfl
  | callbackReturns => exact stackMove_afterCallback h
  | accept fd mallocOk =>
      obtain ⟨hstack, _, rfl⟩ := accept_eq_some h
      exact stackMove_acceptCb sock fd mallocOk hstack
  | readReady c ret =>
      obtain ⟨ctx, _, hok, rfl⟩ := onConn_eq_some h
      simp only [Bool.and_eq_true, List.isEmpty_iff] at hok
      exact stackMove_readCb sock c ctx ret hok.1.1.1.1
  | writeReady c =>
      obtain ⟨ctx, _, _, rfl⟩ := onConn_eq_some h
      exact .push rfl (by simp [Frame.ofEvent]) (by simp)
  | drainWrite ret =>
      obtain ⟨c, stack, ctx, w, rest, _, _, _, _, rfl⟩ := drainWrite_eq_some h
      exact stackMove_writeCbIter c ctx w rest ret
  | drainEnd =>
      obtain ⟨c, stack, ctx, hstack, _, _, rfl⟩ := drainEnd_eq_some h
      exact .pop hstack

end StackSteps

end Sock
end Iojxd
