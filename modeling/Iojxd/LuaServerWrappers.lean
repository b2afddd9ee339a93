import Iojxd.LuaServerRuns

/-!
# The wrapper behind `ctx->data`

`cb_read` and `cb_close` take `ctx->data` for the wrapper of the connection, but
`cb_accept` makes a wrapper only if `on_accept` is registered when the
connection is accepted; `cb_close` then calls `un_ref` whatever it finds.  Every
event finds its wrapper exactly in the runs whose events are all on connections
that were accepted with `on_accept` registered: such a wrapper holds itself for
as long as data can arrive.
-/

namespace Iojxd
namespace LuaServer

open Sock Socket LuaRef TransitionRun World
open LuaConn (luaSock)

/-- Every `cb_read` and `cb_close` so far has found the wrapper of its
connection, and no null pointer was followed. -/
def WrappersFound (w : World) : Prop :=
  (∀ u ∈ w.dataUses, u.data = some u.conn ∧ u.destroyed = false) ∧
    w.halted ≠ some .nullPointer

/-- Data and ends of files arrive on connections that were accepted while
`on_accept` was registered. -/
def OnGreeted (w : World) : Label → Prop
  | .readReady c (.data _) => w.greeted c = true
  | _ => True

instance (w : World) (l : Label) : Decidable (OnGreeted w l) := by
  unfold OnGreeted
  split <;> infer_instance

/-- Servers are made, registered with, started, closed and collected; their
connections are accepted, read, closed by the peer and written to.  Lua closes
no connection, and no queued write is taken up. -/
def ofReading : Label → Bool
  | .close _ => false
  | .writeReady _ => false
  | .drainWrite _ _ => false
  | .drainEnd => false
  | _ => true

/-! ## Connections without further data -/

/-- No data can arrive any more. -/
def Dormant (s : Net) (c : Nat) : Prop :=
  (∀ ctx, s.conns c = some ctx → ctx.active = false) ∧
    .acceptDone c ∉ s.stack

section Dormant

variable {s m t : Net} {c : Nat}

theorem Dormant.still (h : Dormant s c) (hstill : Still s m) :
    Dormant m c := by
  constructor
  · intro ctx hc
    obtain ⟨old, hold, _, hactive⟩ := hstill.conn hc
    rw [← hactive]
    exact h.1 old hold
  · rw [hstill.accepting c]
    exact h.2

/-- No step but an accept starts a read watcher again. -/
theorem Dormant.step
    {l : Sock.Label} (h : Dormant s c)
    (hl : ∀ fd mallocOk, l ≠ .accept fd mallocOk)
    (ht : Sock.step luaSock s l = some t) :
    Dormant t c := by
  cases connMove_of_step hl ht with
  | still hnone hstill => exact h.still hstill
  | @closes m d ctx hsome hstill hd =>
      have hm := h.still hstill
      refine ⟨?_, hm.2⟩
      intro x hx
      rcases update_eq_some hx with ⟨rfl, rfl⟩ | ⟨_, hold⟩
      · rfl
      · exact hm.1 x hold
  | @activates d ctx stack hnone hstack hd =>
      have hne : c ≠ d := by
        rintro rfl
        apply h.2
        rw [hstack]
        exact List.mem_cons_self
      constructor
      · intro x hx
        rw [Net.setConn_conns, Function.update_of_ne hne] at hx
        exact h.1 x hx
      · intro hin
        apply h.2
        rw [hstack]
        exact List.mem_cons_of_mem _ hin

theorem Dormant.newConn
    {fd : Int} {ctx : IxfdConnCtx} (h : Dormant s c)
    (hnew : NewConn s t fd ctx) (hc : c ≠ s.nextConn) :
    Dormant t c := by
  constructor
  · intro x hx
    rw [hnew.conns, Function.update_of_ne hc] at hx
    exact h.1 x hx
  · rcases hnew.entered with ⟨_, hstack⟩ | ⟨_, hstack⟩
    · rw [hstack, List.mem_cons, not_or]
      refine ⟨?_, h.2⟩
      intro heq
      cases heq
      exact hc rfl
    · rw [hstack]
      exact h.2

/-- `ixfd_commonsock_close` after `cb_close`. -/
theorem dormant_closed
    {stack : List Frame} (hbelow : EventsBelow s.stack)
    (hstack : s.stack = .closeDone c :: stack)
    (ht : Sock.step luaSock s .callbackReturns = some t) :
    Dormant t c := by
  have hnil : stack = [] := hbelow [] _ stack hstack rfl
  simp only [Sock.step, afterCallback, hstack] at ht
  obtain ⟨ctx, _, rfl⟩ := Option.map_eq_some_iff.mp ht
  constructor
  · intro x hx
    rcases update_eq_some hx with ⟨_, rfl⟩ | ⟨hne, _⟩
    · rfl
    · exact absurd rfl hne
  · rw [hnil]
    exact List.not_mem_nil

theorem stackMove_newConn
    {fd : Int} {ctx : IxfdConnCtx} (hnew : NewConn s t fd ctx)
    (hstack : s.stack = []) :
    StackMove none s.stack t.stack := by
  rcases hnew.entered with ⟨_, hpush⟩ | ⟨_, hsame⟩
  · exact .push hpush (fun _ => hstack) (by simp)
  · exact .same hsame

end Dormant

/-! ## The invariant -/

/-- Connections accepted with `on_accept` registered have a wrapper, which holds
itself unless the connection is dormant; that of `dropped` has just been let
go. -/
structure Wrapped (dropped : Option Nat) (w : World) : Prop where
  found : WrappersFound w
  met : ∀ c, w.data c = if w.greeted c then some c else none
  alive : ∀ c, w.greeted c = true → dropped ≠ some c →
    (w.wrappers c).thisRef = true ∨ Dormant w.layer.net c
  kept : ∀ c, (w.wrappers c).thisRef = true → w.layer.freedCtx c = false
  fresh : ∀ c, w.layer.net.nextConn ≤ c → w.layer.freedCtx c = false
  closing : ∀ c, .closeDone c ∈ w.layer.net.stack → w.greeted c = true
  below : EventsBelow w.layer.net.stack
  known : Known w.layer.net
  awake : Awake w.layer.net

theorem wrapped_init :
    Wrapped none .init where
  found := by simp [WrappersFound, World.init]
  met := by simp [World.init]
  alive := by simp [World.init]
  kept := by simp [World.init]
  fresh := by simp [World.init, Layer.init]
  closing := by simp [World.init, Layer.init, Net.init]
  below := by
    intro above frame below heq
    simp [World.init, Layer.init, Net.init] at heq
  known := known_init
  awake := awake_init

namespace Wrapped

variable {w v : World}

theorem onlyRefs
    {dropped : Option Nat} (h : Wrapped none w)
    (hrefs : OnlyRefs dropped w v) :
    Wrapped dropped v where
  found := by
    unfold WrappersFound
    rw [hrefs.dataUses, hrefs.halted]
    exact h.found
  met := by
    rw [hrefs.data, hrefs.greeted]
    exact h.met
  alive := by
    intro c hc hdropped
    rw [hrefs.greeted] at hc
    rcases h.alive c hc (by simp) with hthis | hdormant
    · rw [hrefs.thisRef c hdropped]
      exact Or.inl hthis
    · right
      unfold Dormant
      rw [hrefs.conns, hrefs.stack]
      exact hdormant
  kept := by
    intro c hthis
    by_contra hfreed
    rcases hrefs.freed c (Bool.not_eq_false _ ▸ hfreed) with hold | ⟨hno, _⟩
    · cases hbefore : (w.wrappers c).thisRef with
      | true =>
          rw [h.kept c hbefore] at hold
          cases hold
      | false =>
          rw [hrefs.unRef c hbefore] at hthis
          cases hthis
    · rw [hno] at hthis
      cases hthis
  fresh := by
    intro c hc
    rw [hrefs.nextConn] at hc
    by_contra hfreed
    rcases hrefs.freed c (Bool.not_eq_false _ ▸ hfreed) with hold | ⟨_, hconn⟩
    · rw [h.fresh c hc] at hold
      cases hold
    · rw [h.known c hc] at hconn
      cases hconn
  closing := by
    rw [hrefs.stack, hrefs.greeted]
    exact h.closing
  below := by
    rw [hrefs.stack]
    exact h.below
  known := known_congr h.known hrefs.conns hrefs.nextConn
  awake := h.awake.congr hrefs.conns fun _ hd => hrefs.stack ▸ hd

/-- A step of a server. -/
theorem sameConns
    (h : Wrapped none w) (hsame : SameConns w v)
    (hhalted : v.halted ≠ some .nullPointer) :
    Wrapped none v where
  found := by
    refine ⟨?_, hhalted⟩
    rw [hsame.dataUses]
    exact h.found.1
  met := by
    rw [hsame.data, hsame.greeted]
    exact h.met
  alive := by
    unfold Dormant
    rw [hsame.greeted, hsame.wrappers, hsame.conns, hsame.stack]
    exact h.alive
  kept := by
    rw [hsame.wrappers, hsame.freed]
    exact h.kept
  fresh := by
    intro c hc
    rw [hsame.freed]
    exact h.fresh c (hsame.nextConn.trans hc)
  closing := by
    rw [hsame.stack, hsame.greeted]
    exact h.closing
  below := by
    rw [hsame.stack]
    exact h.below
  known := netInvariant_known.congr h.known hsame.conns hsame.stack
    hsame.nextConn
  awake := h.awake.congr hsame.conns fun _ hd => hsame.stack ▸ hd

/-- The connection layer takes a step other than an accept.  It has come to rest
with the connection whose wrapper was let go. -/
theorem withNet
    {dropped : Option Nat} (h : Wrapped dropped w) {l : Sock.Label} {net : Net}
    (hl : ∀ fd mallocOk, l ≠ .accept fd mallocOk)
    (hnet : Sock.step luaSock w.layer.net l = some net)
    (hclosing : ∀ c, closingOf l = some c → w.greeted c = true)
    (hdropped : ∀ c, dropped = some c → Dormant net c) :
    Wrapped none (w.withNet net) where
  found := h.found
  met := h.met
  alive := by
    intro c hc _
    by_cases heq : dropped = some c
    · exact Or.inr (hdropped c heq)
    · rcases h.alive c hc heq with hthis | hdormant
      · exact Or.inl hthis
      · exact Or.inr (hdormant.step hl hnet)
  kept := h.kept
  fresh := by
    intro c hc
    have hnext := nextConn_step hl hnet
    exact h.fresh c (hnext ▸ hc)
  closing := by
    intro c hc
    rcases (stackMove_step hnet).closing hc with hold | hnew
    · exact h.closing c hold
    · exact hclosing c hnew
  below := h.below.move (stackMove_step hnet)
  known := known_step h.known hnet
  awake := awake_step h.awake hnet

theorem entering
    {net : Net} {c : Nat} {registered : Bool}
    (h : Wrapped none (w.withNet net)) :
    Wrapped none (w.entering net c registered) := by
  unfold World.entering
  split
  · exact h.onlyRefs ((OnlyRefs.refl _).enter c registered)
  · exact h

/-- An event on a connection that is not dormant. -/
theorem useData
    (h : Wrapped none w) {c : Nat} (hc : w.greeted c = true)
    (hlive : ¬ Dormant w.layer.net c) :
    Wrapped none (w.useData c) := by
  have hthis : (w.wrappers c).thisRef = true :=
    (h.alive c hc (by simp)).resolve_right hlive
  have hfound : WrappersFound (w.useData c) := by
    refine ⟨?_, h.found.2⟩
    intro u hu
    rcases List.mem_append.mp hu with hold | hnew
    · exact h.found.1 u hold
    · rw [List.mem_singleton] at hnew
      rw [hnew]
      refine ⟨?_, h.kept c hthis⟩
      simp [h.met c, hc]
  exact ⟨hfound, h.met, h.alive, h.kept, h.fresh, h.closing, h.below,
    h.known, h.awake⟩

end Wrapped

/-! ## Accepts -/

/-- A connection is accepted, and gets a wrapper if `registered` is set. -/
structure Accepted (w v : World) (net : Net) (registered : Bool) : Prop where
  layer : v.layer.net = net
  freed : v.layer.freedCtx = w.layer.freedCtx
  greeted : v.greeted =
    Function.update w.greeted w.layer.net.nextConn registered
  data : v.data = Function.update w.data w.layer.net.nextConn
    (if registered then some w.layer.net.nextConn else none)
  wrappers : ∀ c, c ≠ w.layer.net.nextConn → v.wrappers c = w.wrappers c
  thisRef : registered = true →
    (v.wrappers w.layer.net.nextConn).thisRef = true
  dataUses : v.dataUses = w.dataUses
  halted : v.halted = w.halted

section Accepts

variable {w v : World} {net : Net}

theorem Wrapped.accepted
    (h : Wrapped none w) {registered : Bool} {fd : Int} {ctx : IxfdConnCtx}
    (hacc : Accepted w v net registered) (hidle : w.layer.net.stack = [])
    (hnew : NewConn w.layer.net net fd ctx) (hknown : Known net)
    (hawake : Awake net) :
    Wrapped none v where
  found := by
    unfold WrappersFound
    rw [hacc.dataUses, hacc.halted]
    exact h.found
  met := by
    intro c
    rw [hacc.data, hacc.greeted]
    by_cases hc : c = w.layer.net.nextConn
    · subst hc
      simp only [Function.update_self]
    · simp only [Function.update_of_ne hc]
      exact h.met c
  alive := by
    intro c hc hnone
    rw [hacc.greeted] at hc
    rw [hacc.layer]
    by_cases hn : c = w.layer.net.nextConn
    · subst hn
      rw [Function.update_self] at hc
      exact Or.inl (hacc.thisRef hc)
    · rw [Function.update_of_ne hn] at hc
      rw [hacc.wrappers c hn]
      rcases h.alive c hc hnone with hthis | hdormant
      · exact Or.inl hthis
      · exact Or.inr (hdormant.newConn hnew hn)
  kept := by
    intro c hc
    rw [hacc.freed]
    by_cases hn : c = w.layer.net.nextConn
    · exact h.fresh c (Nat.le_of_eq hn.symm)
    · rw [hacc.wrappers c hn] at hc
      exact h.kept c hc
  fresh := by
    intro c hc
    rw [hacc.layer, hnew.nextConn] at hc
    rw [hacc.freed]
    exact h.fresh c (Nat.le_of_succ_le hc)
  closing := by
    intro c hc
    rw [hacc.layer] at hc
    have hmove := stackMove_newConn hnew hidle
    rcases hmove.closing hc with hold | hnone
    · rw [hidle] at hold
      cases hold
    · cases hnone
  below := by
    rw [hacc.layer]
    exact h.below.move (stackMove_newConn hnew hidle)
  known := hacc.layer ▸ hknown
  awake := hacc.layer ▸ hawake

/-- `ixfd_commonsock_accept_cb`, after a successful or a failed `accept(2)`. -/
theorem wrapped_acceptCb
    (h : Wrapped none w) {k : Nat} {file : Option Nat} {fd : Int}
    {ctx : IxfdConnCtx} (hidle : w.layer.net.stack = [])
    (hnew : NewConn w.layer.net net fd ctx) (hknown : Known net)
    (hawake : Awake net) :
    Wrapped none (acceptCb w k net file) := by
  unfold acceptCb
  dsimp only
  split
  · rename_i hreg
    have hacc : Accepted w
        (newSocketContext (newContext w k net file) w.layer.net.nextConn) net
        true := by
      refine ⟨rfl, rfl, ?_, ?_, ?_, ?_, rfl, rfl⟩
      · change Function.update w.greeted _ (w.bases k).refCbaccept = _
        rw [hreg]
      · simp [newSocketContext, newContext]
      · intro c hc
        simp [newSocketContext, newContext, Function.update_of_ne hc]
      · intro _
        simp [newSocketContext]
    have hwrapped := h.accepted hacc hidle hnew hknown hawake
    exact hwrapped.onlyRefs ((OnlyRefs.refl _).enter _ true)
  · rename_i hreg
    have hacc : Accepted w (newContext w k net file) net false := by
      refine ⟨rfl, rfl, ?_, ?_, fun _ _ => rfl, by simp, rfl, rfl⟩
      · simp only [newContext, hreg]
      · simp [newContext]
    have hwrapped := h.accepted hacc hidle hnew hknown hawake
    exact hwrapped.onlyRefs ((OnlyRefs.refl _).enter _ false)

end Accepts

/-! ## Events -/

section Events

variable {w v : World}

/-- Where the read watcher fires the connection is not dormant. -/
theorem not_dormant_of_readReady
    {s net : Net} {c : Nat} {ret : ReadRet} (hawake : Awake s)
    (hnet : Sock.step luaSock s (.readReady c ret) = some net) :
    ¬ Dormant s c := by
  obtain ⟨ctx, hc, hok, _⟩ := onConn_eq_some hnet
  simp only [Bool.and_eq_true] at hok
  have hreading := (hawake c ctx hc).reading
  rw [hok.1.1.1.2] at hreading
  intro hdormant
  rw [hdormant.1 ctx hc] at hreading
  cases hreading

theorem wrapped_readCb
    (h : Wrapped none w) {c : Nat} {ret : ReadRet} {net : Net}
    (hnet : Sock.step luaSock w.layer.net (.readReady c ret) = some net)
    (hgreeted : OnGreeted w (.readReady c ret)) :
    Wrapped none (readCb w c ret net) := by
  have huse : OnlyRefs none w (w.useSockOf c) :=
    (OnlyRefs.refl w).useSockOf c
  have hused := h.onlyRefs huse
  have hlive := not_dormant_of_readReady h.awake hnet
  rw [← layer_useSockOf w c] at hnet hlive
  unfold readCb
  rcases ret with _ | bytes
  · exact hused.withNet (by simp) hnet (by simp [closingOf]) (by simp)
  · have hc : (w.useSockOf c).greeted c = true := by
      rw [huse.greeted]
      exact hgreeted
    have hdata := hused.useData hc hlive
    have hwith : Wrapped none (((w.useSockOf c).useData c).withNet net) :=
      hdata.withNet (by simp) hnet (by
        rintro d ⟨⟩
        exact hc) (by simp)
    cases bytes with
    | nil => exact hwith.entering
    | cons b bs => exact hwith.entering

/-- What `cb_close` does after Lua. -/
theorem finishCallback_cases (h : Wrapped none w) :
    (∃ c stack, w.layer.net.stack = .closeDone c :: stack ∧
      OnlyRefs (some c) w w.finishCallback) ∨
    (∀ c stack, w.layer.net.stack ≠ .closeDone c :: stack) ∧
      w.finishCallback = w := by
  unfold World.finishCallback
  split
  · rename_i c stack hstack
    have hgreeted : w.greeted c = true := by
      apply h.closing c
      rw [hstack]
      exact List.mem_cons_self
    have hdata : w.data c = some c := by
      rw [h.met c, if_pos hgreeted]
    rw [hdata]
    have hunref := (OnlyRefs.refl w).unRef_self c
    exact Or.inl ⟨c, stack, hstack, hunref.useSockOf c⟩
  · rename_i hother
    exact Or.inr ⟨hother, rfl⟩

/-- Where a callback returns no null pointer is followed. -/
theorem finishCallback_halted (h : Wrapped none w) :
    w.finishCallback.halted = w.halted := by
  rcases finishCallback_cases h with ⟨c, stack, _, hrefs⟩ | ⟨_, hsame⟩
  · exact hrefs.halted
  · rw [hsame]

theorem wrapped_callbackReturns
    (h : Wrapped none w) {net : Net}
    (hnet : Sock.step luaSock w.finishCallback.layer.net .callbackReturns =
      some net) :
    Wrapped none (w.finishCallback.withNet net) := by
  rcases finishCallback_cases h with ⟨c, stack, hstack, hrefs⟩ | ⟨_, hsame⟩
  · have hdropped := h.onlyRefs hrefs
    apply hdropped.withNet (by simp) hnet (by simp [closingOf])
    rintro d ⟨⟩
    exact dormant_closed hdropped.below (hrefs.stack.trans hstack) hnet
  · rw [hsame] at hnet ⊢
    exact h.withNet (by simp) hnet (by simp [closingOf]) (by simp)

end Events

/-! ## Steps -/

section Steps

variable {w v : World}

/-- Every step keeps the invariant. -/
theorem wrapped_step
    {l : Label} (h : Wrapped none w) (hdefault : NoDefault w)
    (hv : step w l = some v) (hl : ofReading l = true)
    (hgreeted : OnGreeted w l) :
    Wrapped none v := by
  obtain ⟨hrunning, hmove⟩ := move_of_step hv
  by_cases hserver : ofServer l = true
  · apply h.sameConns (sameConns_of_move hmove hdefault hserver)
    rcases halted_of_server hmove hserver with hhalted | hhalted
    · rw [hhalted, hrunning]
      simp
    · rw [hhalted]
      simp
  · cases hmove with
    | accept hk haccept hactive hidle hnet =>
        obtain ⟨_, _, rfl⟩ := accept_eq_some hnet
        obtain ⟨ctx, hnew⟩ := newConn_acceptCb luaSock w.layer.net _ _
        exact wrapped_acceptCb h hidle hnew (known_step h.known hnet)
          (awake_step h.awake hnet)
    | acceptFailed hk haccept hactive hidle =>
        obtain ⟨ctx, hnew⟩ := newConn_acceptFailed luaSock w.layer.net _
        exact wrapped_acceptCb h hidle hnew
          (netInvariant_known.acceptFailed luaSock _ h.known)
          (netInvariant_awake.acceptFailed luaSock _ h.awake)
    | readReady hnet => exact wrapped_readCb h hnet hgreeted
    | @write c content cb args ret net hhandles hnet =>
        have huse : OnlyRefs none w
            (if startsWatcher w.layer.net c content ret then w.useSockOf c
              else w) := by
          split
          · exact (OnlyRefs.refl w).useSockOf c
          · exact .refl w
        have hlayer : (if startsWatcher w.layer.net c content ret then
            w.useSockOf c else w).layer = w.layer := by
          split
          · exact layer_useSockOf w c
          · rfl
        rw [← hlayer] at hnet
        have hwith := (h.onlyRefs huse).withNet (by simp) hnet
          (by simp [closingOf]) (by simp)
        exact hwith.entering
    | sock hhandles => exact h.onlyRefs ((OnlyRefs.refl w).useSockOf _)
    | collect hhandles => exact h.onlyRefs (OnlyRefs.collect w _)
    | halts hhalted =>
        have hrefs : OnlyRefs none w w.dropTemporary := .dropTemporary w
        rw [finishCallback_halted (h.onlyRefs hrefs), hrefs.halted,
          hrunning] at hhalted
        cases hhalted
    | callbackReturns hhalted hnet =>
        have hrefs : OnlyRefs none w w.dropTemporary := .dropTemporary w
        exact wrapped_callbackReturns (h.onlyRefs hrefs) hnet
    | close => cases hl
    | writeReady => cases hl
    | drainWrite => cases hl
    | drainEnd => cases hl
    | _ => exact absurd rfl hserver

theorem dataUses_entering
    (w : World) (net : Net) (c : Nat) (registered : Bool) :
    (w.entering net c registered).dataUses = w.dataUses := by
  unfold World.entering
  split
  · have henter : OnlyRefs none (w.withNet net)
        ((w.withNet net).enter c registered) :=
      (OnlyRefs.refl _).enter c registered
    exact henter.dataUses
  · rfl

/-- What `cb_read` or `cb_close` finds is recorded. -/
theorem dataUses_readCb
    (w : World) (c : Nat) (bytes : List UInt8) (net : Net) :
    (readCb w c (.data bytes) net).dataUses =
      w.dataUses ++ [⟨c, w.data c, w.layer.freedCtx c⟩] := by
  have huse : OnlyRefs none w (w.useSockOf c) :=
    (OnlyRefs.refl w).useSockOf c
  have hdata : ((w.useSockOf c).useData c).dataUses =
      w.dataUses ++ [⟨c, w.data c, w.layer.freedCtx c⟩] := by
    rw [World.useData_dataUses, huse.dataUses, huse.data, layer_useSockOf]
  cases bytes with
  | nil => exact (dataUses_entering ..).trans hdata
  | cons b bs => exact (dataUses_entering ..).trans hdata

/-- The events of a step find their wrapper exactly if the connection was
accepted with `on_accept` registered. -/
theorem wrappersFound_step_iff
    {l : Label} (h : Wrapped none w) (hdefault : NoDefault w)
    (hv : step w l = some v) (hl : ofReading l = true) :
    WrappersFound v ↔ OnGreeted w l := by
  constructor
  · intro hfound
    cases (move_of_step hv).2 with
    | @readReady c ret net hnet =>
        cases ret with
        | error => trivial
        | data bytes =>
            have hnew : ⟨c, w.data c, w.layer.freedCtx c⟩ ∈
                (readCb w c (.data bytes) net).dataUses := by
              rw [dataUses_readCb]
              simp
            have hdata : w.data c = some c := (hfound.1 _ hnew).1
            rw [h.met c] at hdata
            change w.greeted c = true
            by_contra hnot
            rw [if_neg hnot] at hdata
            cases hdata
    | _ => trivial
  · intro hgreeted
    exact (wrapped_step h hdefault hv hl hgreeted).found

end Steps

/-! ## Runs -/

/-- **Every event finds its wrapper** exactly in the runs where data and ends of
files arrive only on connections accepted while `on_accept` was registered. -/
theorem wrappers_found_iff
    (ls : List Label) (hls : ∀ l ∈ ls, ofReading l = true) :
    EveryState step WrappersFound .init ls ↔
      EveryStep step (fun w l _ => OnGreeted w l) .init ls := by
  rw [everyState_iff_everyStep wrapped_init.found]
  apply everyStep_congr (I := fun w => Wrapped none w ∧ NoDefault w) _ _
    ⟨wrapped_init, noDefault_init⟩
  · intro w v l hl h hv
    exact wrappersFound_step_iff h.1 h.2 hv (hls l hl)
  · intro w v l hl h hv hfound
    have hgreeted := (wrappersFound_step_iff h.1 h.2 hv (hls l hl)).mp hfound
    exact ⟨wrapped_step h.1 h.2 hv (hls l hl) hgreeted,
      noDefault_step h.2 (move_of_step hv).2⟩

/-- A server that registers all three functions, one of them after `start`, and
whose client sends a byte and leaves. -/
theorem wrappers_found_iff_echo :
    EveryState step WrappersFound .init
      [.construct, .register 0 ⟨true, true, false⟩, .start 0 (some 3) true,
        .register 0 ⟨true, true, true⟩, .accept 0 5 true, .callbackReturns,
        .readReady 1 (.data [7]), .callbackReturns, .readReady 1 (.data []),
        .callbackReturns] :=
  (wrappers_found_iff _ (by decide)).mpr (by decide)

/-- Only `on_read` and `on_close` are registered, and the client leaves at once:
`cb_close` calls `un_ref` through a null pointer. -/
theorem wrapper_never_made :
    let ls : List Label :=
      [.construct, .register 0 ⟨true, false, true⟩, .start 0 (some 3) true,
        .accept 0 5 true, .callbackReturns, .readReady 1 (.data []),
        .callbackReturns]
    (run step .init ls).map (fun w => (w.dataUses, w.halted)) =
        some ([⟨1, none, false⟩], some .nullPointer) ∧
      ¬ EveryState step WrappersFound .init ls := by
  refine refuted_of_run (by decide) ?_
  intro w hshown hfound
  rw [Prod.mk.injEq] at hshown
  exact hfound.2 hshown.2

end LuaServer
end Iojxd
