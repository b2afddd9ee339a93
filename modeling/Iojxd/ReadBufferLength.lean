import Iojxd.SockModel
import Iojxd.TransitionRun

/-!
# The length of the read buffer

`ixfd_commonsock_set_bufread_len` stores a length and a block of one byte more,
and `ixfd_commonsock_read_cb` relies on both.  Lengths are 64-bit, so the sum
wraps at the largest one; what `malloc` gives, `NULL` or a block of exactly the
requested size, is part of the label.
-/

namespace Iojxd
namespace ReadBufferLength

open TransitionRun

/-- A block on the heap. -/
structure Block where
  cells : List UInt8
  fits : cells.length < 2 ^ 64

/-- Results of `malloc(n)`. -/
abbrev Malloc (n : Nat) := Option { b : Block // b.cells.length = n }

namespace Block

/-- `memset(block, 0, n)`, as far as it stays inside. -/
def clear (b : Block) (n : Nat) : Block where
  cells := List.replicate (min n b.cells.length) 0 ++ b.cells.drop n
  fits := by
    have hfits := b.fits
    rw [List.length_append, List.length_replicate, List.length_drop]
    omega

/-- What `read(2)` puts into the block, as far as it stays inside. -/
def store (b : Block) (data : List UInt8) : Block where
  cells := data.take b.cells.length ++ b.cells.drop data.length
  fits := by
    have hfits := b.fits
    rw [List.length_append, List.length_take, List.length_drop]
    omega

@[simp] theorem length_clear (b : Block) (n : Nat) :
    (b.clear n).cells.length = b.cells.length := by
  simp only [clear, List.length_append, List.length_replicate, List.length_drop]
  omega

@[simp] theorem length_store (b : Block) (data : List UInt8) :
    (b.store data).cells.length = b.cells.length := by
  simp only [store, List.length_append, List.length_take, List.length_drop]
  omega

/-- Data that fits comes first. -/
theorem take_store {b : Block} {data : List UInt8}
    (h : data.length ≤ b.cells.length) :
    (b.store data).cells.take data.length = data := by
  simp only [store, List.take_of_length_le h]
  exact List.take_left

/-- Behind data that fits, a cleared byte is zero. -/
theorem getElem?_store_clear {b : Block} {data : List UInt8} {n : Nat}
    (hn : n ≤ b.cells.length) (hdata : data.length < n) :
    ((b.clear n).store data).cells[data.length]? = some 0 := by
  have hfit : data.length ≤ (b.clear n).cells.length := by
    rw [length_clear]
    omega
  have hcells : ((b.clear n).store data).cells =
      data ++ (b.clear n).cells.drop data.length := by
    simp only [store, List.take_of_length_le hfit]
  rw [hcells, List.getElem?_append_right le_rfl, Nat.sub_self,
    List.getElem?_drop, Nat.add_zero, clear, List.getElem?_append_left]
  · rw [List.getElem?_replicate, if_pos]
    omega
  · rw [List.length_replicate]
    omega

end Block

/-- The fields `buf_read` and `size_bufread` of `ixfd_conn_ctx`. -/
structure ReadBuf where
  bufRead : Option Block
  sizeBufread : BitVec 64

namespace ReadBuf

/-- The number of bytes that `buf_read` points to. -/
def capacity (conn : ReadBuf) : Nat :=
  match conn.bufRead with
  | none => 0
  | some b => b.cells.length

/-- There is room for `size_bufread + 1` bytes. -/
def Roomy (conn : ReadBuf) : Prop :=
  conn.sizeBufread.toNat + 1 ≤ conn.capacity

end ReadBuf

/-- `ixfd_commonsock_set_bufread_len`. -/
def ixfdCommonsockSetBufreadLen (conn : ReadBuf) (len : BitVec 64)
    (realloced : Malloc (len + 1).toNat) : ReadBuf :=
  match realloced with
  | some b =>
      { bufRead := some b.val
        sizeBufread := len }
  | none => conn

/-- The two fields after `ixfd_commonsock_create_ctx`. -/
def ixfdCommonsockCreateCtx (realloced : Malloc 4097) : ReadBuf :=
  ixfdCommonsockSetBufreadLen ⟨none, 0⟩ 4096 realloced

/-- The accesses of `ixfd_commonsock_read_cb` to the buffer; `data` is what
`read(2)` stored. -/
def ixfdCommonsockReadCb (conn : ReadBuf) (data : List UInt8) : ReadBuf :=
  { conn with
    bufRead := conn.bufRead.map fun b =>
      (b.clear (conn.sizeBufread + 1).toNat).store data }

/-- Calls of `ixfd_commonsock_set_bufread_len` and read events. -/
inductive Label where
  | setBufreadLen (len : BitVec 64) (realloced : Malloc (len + 1).toNat)
  | readReady (data : List UInt8)

/-- The step function: the length passes the assertion, and `read(2)` gives at
most what it was asked for. -/
def step (conn : ReadBuf) : Label → Option ReadBuf
  | .setBufreadLen len realloced =>
      if 0 < len then some (ixfdCommonsockSetBufreadLen conn len realloced)
      else none
  | .readReady data =>
      if data.length ≤ conn.sizeBufread.toNat then
        some (ixfdCommonsockReadCb conn data)
      else none

/-- Without the contents of the block the setter is that of the connection
layer. -/
theorem setBufreadLen_erase (ctx : Sock.IxfdConnCtx) (conn : ReadBuf)
    (len : BitVec 64) (realloced : Malloc (len + 1).toNat)
    (hbuf : ctx.bufRead = conn.bufRead.map fun b => b.cells.length)
    (hsize : ctx.sizeBufread = conn.sizeBufread.toNat) :
    let t := ixfdCommonsockSetBufreadLen conn len realloced
    let ctx' := Sock.ixfdCommonsockSetBufreadLen ctx len.toNat realloced.isSome
    ctx'.bufRead = (t.bufRead.map fun b => b.cells.length) ∧
      ctx'.sizeBufread = t.sizeBufread.toNat := by
  cases realloced with
  | none => exact ⟨hbuf, hsize⟩
  | some b =>
      refine ⟨?_, rfl⟩
      have hlength : b.val.cells.length = (len.toNat + 1) % Sock.sizeMod := by
        rw [b.property, BitVec.toNat_add]
        rfl
      simp [Sock.ixfdCommonsockSetBufreadLen, ixfdCommonsockSetBufreadLen,
        hlength]

/-! ## One step -/

/-- The sum with 1 wraps at the largest length only. -/
theorem toNat_add_one_iff (len : BitVec 64) :
    (len + 1).toNat = len.toNat + 1 ↔ len ≠ BitVec.allOnes 64 := by
  have hlt := len.isLt
  rw [ne_eq, ← BitVec.toNat_inj, BitVec.toNat_allOnes, BitVec.toNat_add]
  change (len.toNat + 1) % 2 ^ 64 = len.toNat + 1 ↔ ¬ len.toNat = 2 ^ 64 - 1
  omega

/-- The largest length gets no block: `malloc(0)` fails. -/
def GrantsWhole (_ : ReadBuf) (l : Label) (_ : ReadBuf) : Prop :=
  ∀ len realloced, l = .setBufreadLen len realloced →
    len = BitVec.allOnes 64 → realloced = none

/-- What a step does to the buffer: a failed allocation keeps buffer and length,
and a read event clears and fills inside the block and leaves a NUL behind the
data. -/
def AccessesInside (s : ReadBuf) (l : Label) (t : ReadBuf) : Prop :=
  match l with
  | .setBufreadLen _ realloced => realloced = none → t = s
  | .readReady data =>
      ∃ b b', s.bufRead = some b ∧ t.bufRead = some b' ∧
        (s.sizeBufread + 1).toNat ≤ b.cells.length ∧
        s.sizeBufread.toNat ≤ b.cells.length ∧
        b'.cells.take data.length = data ∧
        b'.cells[data.length]? = some 0

theorem capacity_readCb (conn : ReadBuf) (data : List UInt8) :
    (ixfdCommonsockReadCb conn data).capacity = conn.capacity := by
  unfold ReadBuf.capacity ixfdCommonsockReadCb
  cases conn.bufRead with
  | none => rfl
  | some b => simp

/-- **Step lemma**: from a buffer with room a step leads to one with room unless
it grants the largest length. -/
theorem roomy_step_iff
    {s t : ReadBuf} {l : Label} (hs : s.Roomy) (h : step s l = some t) :
    t.Roomy ↔ GrantsWhole s l t := by
  cases l with
  | setBufreadLen len realloced =>
      simp only [step, Option.ite_none_right_eq_some, Option.some.injEq] at h
      obtain ⟨_, rfl⟩ := h
      cases realloced with
      | none =>
          constructor
          · rintro _ len' realloced' heq _
            cases heq
            rfl
          · intro _
            exact hs
      | some b =>
          have hroom : (ixfdCommonsockSetBufreadLen s len (some b)).Roomy ↔
              len ≠ BitVec.allOnes 64 := by
            have hwrap := toNat_add_one_iff len
            have hle : (len + 1).toNat ≤ len.toNat + 1 := by
              rw [BitVec.toNat_add]
              exact Nat.mod_le _ _
            change len.toNat + 1 ≤ b.val.cells.length ↔ _
            rw [b.property, ← hwrap]
            omega
          rw [hroom]
          constructor
          · intro hne len' realloced' heq hmax
            cases heq
            exact absurd hmax hne
          · intro hgrant hmax
            cases hgrant len (some b) rfl hmax
  | readReady data =>
      simp only [step, Option.ite_none_right_eq_some, Option.some.injEq] at h
      obtain ⟨_, rfl⟩ := h
      constructor
      · rintro _ len realloced heq
        cases heq
      · intro _
        rw [ReadBuf.Roomy, capacity_readCb]
        exact hs

/-- With room, the accesses of a step stay inside. -/
theorem accesses_inside_step
    {s t : ReadBuf} {l : Label} (hs : s.Roomy) (h : step s l = some t) :
    AccessesInside s l t := by
  cases l with
  | setBufreadLen len realloced =>
      simp only [step, Option.ite_none_right_eq_some, Option.some.injEq] at h
      obtain ⟨_, rfl⟩ := h
      rintro rfl
      rfl
  | readReady data =>
      simp only [step, Option.ite_none_right_eq_some, Option.some.injEq] at h
      obtain ⟨hdata, rfl⟩ := h
      cases hbuf : s.bufRead with
      | none => simp [ReadBuf.Roomy, ReadBuf.capacity, hbuf] at hs
      | some b =>
          simp only [ReadBuf.Roomy, ReadBuf.capacity, hbuf] at hs
          have hfits := b.fits
          -- the block is shorter than 2^64, so the length is not the largest
          have hwrap : (s.sizeBufread + 1).toNat = s.sizeBufread.toNat + 1 := by
            rw [toNat_add_one_iff]
            intro hmax
            rw [hmax, BitVec.toNat_allOnes] at hs
            omega
          refine ⟨b, _, hbuf, by simp only [ixfdCommonsockReadCb, hbuf]; rfl,
            ?_, ?_, ?_, ?_⟩
          · omega
          · omega
          · apply Block.take_store
            rw [Block.length_clear]
            omega
          · apply Block.getElem?_store_clear
            · omega
            · omega

/-! ## Runs -/

theorem roomy_createCtx_iff (realloced : Malloc 4097) :
    (ixfdCommonsockCreateCtx realloced).Roomy ↔ realloced ≠ none := by
  cases realloced with
  | none => simp [ixfdCommonsockCreateCtx, ixfdCommonsockSetBufreadLen,
      ReadBuf.Roomy, ReadBuf.capacity]
  | some b =>
      have hlength := b.property
      simp [ixfdCommonsockCreateCtx, ixfdCommonsockSetBufreadLen, ReadBuf.Roomy,
        ReadBuf.capacity, hlength]

/-- **The read buffer is large enough** in every state of a run, and the
accesses stay inside, exactly if the allocation at creation succeeds and no call
with the largest length gets a block. -/
theorem read_buffer_roomy_iff (realloced : Malloc 4097) (ls : List Label) :
    (EveryState step ReadBuf.Roomy (ixfdCommonsockCreateCtx realloced) ls ∧
        EveryStep step AccessesInside (ixfdCommonsockCreateCtx realloced) ls) ↔
      realloced ≠ none ∧
        EveryStep step GrantsWhole (ixfdCommonsockCreateCtx realloced) ls := by
  constructor
  · rintro ⟨hstate, _⟩
    have hinit : (ixfdCommonsockCreateCtx realloced).Roomy :=
      hstate [] (List.nil_prefix) _ rfl
    refine ⟨(roomy_createCtx_iff realloced).mp hinit, ?_⟩
    apply everyStep_mono _ hinit ((everyState_iff_everyStep hinit ls).mp hstate)
    intro s t l hs ht hroom
    exact ⟨(roomy_step_iff hs ht).mp hroom, hroom⟩
  · rintro ⟨hsome, hgrants⟩
    have hinit := (roomy_createCtx_iff realloced).mpr hsome
    constructor
    · rw [everyState_iff_everyStep hinit]
      apply everyStep_mono _ hinit hgrants
      intro s t l hs ht hgrant
      have hroom := (roomy_step_iff hs ht).mpr hgrant
      exact ⟨hroom, hroom⟩
    · apply everyStep_mono _ hinit hgrants
      intro s t l hs ht hgrant
      exact ⟨accesses_inside_step hs ht, (roomy_step_iff hs ht).mpr hgrant⟩

/-- A block of zero bytes. -/
def zeros (n : Nat) (h : n < 2 ^ 64) : { b : Block // b.cells.length = n } :=
  ⟨⟨List.replicate n 0, by
    rw [List.length_replicate]
    exact h⟩, List.length_replicate⟩

/-- The length -1 from Lua: a block of no bytes for a length of 2^64 - 1. -/
theorem largest_length_no_room :
    (run step (ixfdCommonsockCreateCtx (some (zeros 4097 (by decide))))
        [.setBufreadLen (BitVec.allOnes 64) (some (zeros 0 (by decide)))]).map
      (fun t => (t.sizeBufread, t.capacity)) = some (BitVec.allOnes 64, 0) ∧
    ¬ EveryState step ReadBuf.Roomy
        (ixfdCommonsockCreateCtx (some (zeros 4097 (by decide))))
        [.setBufreadLen (BitVec.allOnes 64) (some (zeros 0 (by decide)))] := by
  apply refuted_of_run
  · rfl
  · intro t ht hroom
    simp only [Prod.mk.injEq] at ht
    rw [ReadBuf.Roomy, ht.2] at hroom
    omega

end ReadBufferLength
end Iojxd
