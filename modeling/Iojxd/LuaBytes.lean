import Iojxd.LuaValue
import Iojxd.SockCompletion

/-!
# Bytes through Lua

What `ixfd_commonsock_read_cb` reads goes to Lua as a `const char *` and a
length, and comes back to `iojx.sock.write` as a pointer to the Lua string and
the same length.  The first crossing ends the string at the first NUL, the
second one trusts the length.
-/

namespace Iojxd
namespace LuaBytes

open Sock (Net IxfdSock Effect Buffer newEffects)

/-- The block `buf_read` of a connection whose `size_bufread` is `size`. -/
structure ReadBuffer (size : Nat) where
  cells : List UInt8
  capacity : cells.length = size + 1

/-- What `read(2)` gives for a request of `size` bytes before end of file; it
never gives more than an `int` can count. -/
structure Chunk (size : Nat) where
  bytes : List UInt8
  nonempty : bytes ≠ []
  inside : bytes.length ≤ size
  counted : bytes.length < 2147483648

namespace ReadBuffer

variable {size : Nat}

/-- `memset(ctx->buf_read, 0, ctx->size_bufread + 1)`. -/
def clear (b : ReadBuffer size) : ReadBuffer size where
  cells := b.cells.map fun _ => 0
  capacity := by
    rw [List.length_map]
    exact b.capacity

/-- What `read(2)` does to the block. -/
def fill (b : ReadBuffer size) (chunk : Chunk size) : ReadBuffer size where
  cells := chunk.bytes ++ b.cells.drop chunk.bytes.length
  capacity := by
    have hinside := chunk.inside
    have hcapacity := b.capacity
    rw [List.length_append, List.length_drop]
    omega

end ReadBuffer

/-- The arguments of `cb_read`: the bytes from the pointer on, and `len`. -/
structure ReadArgs where
  data : List UInt8
  len : Nat

/-- `ixfd_commonsock_read_cb`, outside passive mode, up to its callback. -/
def ixfdCommonsockReadCb
    {size : Nat} (buf : ReadBuffer size) (chunk : Chunk size) : ReadArgs where
  data := (buf.clear.fill chunk).cells
  len := chunk.bytes.length

/-- A call of a Lua function by a read callback. -/
structure LuaCall (α : Type) where
  fn : Nat
  ctx : α
  data : LuaString
  len : Nat

/-- `if (cb && !cb.isNil()) cb(ctx, data, len)`, where `cb` is nil or a
function. -/
def callIfSet
    {α : Type} (cb : Option Nat) (ctx : α) (args : ReadArgs) :
    Option (LuaCall α) :=
  cb.map fun fn => ⟨fn, ctx, cString args.data, args.len⟩

/-- `ixlb_sock_data`: the pointer `cb_read`, null or to nil or a function. -/
structure IxlbSockData where
  cbRead : Option (Option Nat)

/-- The callback set by `ixlb_sock_set_read_callback`. -/
def ixlbSockSetReadCallbackLambda
    (sock : IxlbSockData) (ctx : Nat) (args : ReadArgs) :
    Option (LuaCall Nat) :=
  match sock.cbRead with
  | none => none
  | some cb => callIfSet cb ctx args

/-- The `cb_read` callback of `ixlbx_tcp_base`; `data` is `ctx->data`. -/
def ixlbxTcpBaseCbRead
    (refCbread : Option Nat) (data : Option Nat) (args : ReadArgs) :
    Option (LuaCall (Option Nat)) :=
  callIfSet refCbread data args

/-- A Lua string in memory: its bytes, a NUL, and what lies behind. -/
structure StringBlock where
  content : LuaString
  beyond : Nat → UInt8

namespace StringBlock

def cell (b : StringBlock) (i : Nat) : UInt8 :=
  if h : i < b.content.length then b.content[i]
  else if i = b.content.length then 0
  else b.beyond (i - b.content.length - 1)

/-- The first `len` bytes from the pointer to the string on. -/
def view (b : StringBlock) (len : Nat) : List UInt8 :=
  (List.range len).map b.cell

end StringBlock

/-- `ixlb_sock_write`: its call of `ixfd_commonsock_write`, with the pointer to
the Lua string, a completion callback and a new `LuaRef` as its argument. -/
def ixlbSockWrite
    (ctx : Nat) (data : StringBlock) (len : Nat) (fits : len < Sock.sizeMod)
    (callback refCb : Nat) (ret : Int) : Sock.Label :=
  .write ctx ⟨data.view len, by simpa [StringBlock.view] using fits⟩
    (some callback) refCb ret

/-- The byte sequences given to `write(2)` in a step. -/
def handed (s t : Net) : List (List UInt8) :=
  (newEffects s t).filterMap fun
    | .write _ _ _ _ given _ => some given
    | _ => none

/-- The callback gets the bytes that were read, and their number. -/
structure StringExact
    {size : Nat} {α : Type} (chunk : Chunk size) (call : LuaCall α) :
    Prop where
  data : call.data = chunk.bytes
  len : call.len = chunk.bytes.length

/-- `iojx.sock.write(ctx, data, len)` stays inside the string and hands the
kernel the bytes that were read, whatever lies behind the string. -/
structure EchoExact
    {size : Nat} (chunk : Chunk size) (call : LuaCall Nat) : Prop where
  inside : call.len ≤ call.data.length
  handed : ∀ beyond sock s t fits callback refCb ret,
    Sock.step sock s (ixlbSockWrite call.ctx ⟨call.data, beyond⟩ call.len
      fits callback refCb ret) = some t →
    handed s t = [chunk.bytes]

/-! ## From the kernel to Lua -/

section Reading

variable {size : Nat} (buf : ReadBuffer size) (chunk : Chunk size)

/-- A NUL stands behind the bytes that were read. -/
theorem data_readCb :
    (ixfdCommonsockReadCb buf chunk).data =
      chunk.bytes ++ List.replicate (size + 1 - chunk.bytes.length) 0 := by
  have hclear : buf.clear.cells = List.replicate (size + 1) 0 := by
    simp [ReadBuffer.clear, List.map_const', buf.capacity]
  simp only [ixfdCommonsockReadCb, ReadBuffer.fill, hclear,
    List.drop_replicate]

/-- The Lua string is the chunk up to its first NUL. -/
theorem cString_readCb :
    cString (ixfdCommonsockReadCb buf chunk).data = cString chunk.bytes := by
  rw [data_readCb, cString_append_zeros]

theorem stringExact_iff
    {α : Type} (fn : Nat) (ctx : α) :
    StringExact chunk ⟨fn, ctx, cString (ixfdCommonsockReadCb buf chunk).data,
        (ixfdCommonsockReadCb buf chunk).len⟩ ↔
      (0 : UInt8) ∉ chunk.bytes := by
  rw [← cString_eq_self_iff, ← cString_readCb buf chunk]
  constructor
  · intro h
    exact h.data
  · intro h
    exact ⟨h, rfl⟩

end Reading

/-! ## From Lua to the kernel -/

theorem view_content (b : StringBlock) :
    b.view b.content.length = b.content := by
  apply List.ext_getElem
  · simp [StringBlock.view]
  · intro i _ hi
    simp [StringBlock.view, StringBlock.cell, hi]

/-- A call hands the kernel the bytes it was given. -/
theorem handed_write
    {sock : IxfdSock} {s t : Net} {c : Nat} {data : Buffer} {cb : Option Nat}
    {args : Nat} {ret : Int}
    (h : Sock.step sock s (.write c data cb args ret) = some t) :
    handed s t = [data.bytes] := by
  obtain ⟨ctx, _, _, rfl⟩ := Sock.onConn_eq_some h
  unfold handed newEffects
  by_cases hlt : Sock.toSizeT ret < data.bytes.length
  · rw [Sock.write_queued _ _ _ _ _ _ hlt]
    simp
  · rw [Sock.write_complete _ _ _ _ _ _ hlt]
    cases cb with
    | none => simp
    | some k => simp

/-- An echo is exact if and only if the string is. -/
theorem echoExact_iff
    {size : Nat} (buf : ReadBuffer size) (chunk : Chunk size) (fn ctx : Nat) :
    EchoExact chunk ⟨fn, ctx, cString (ixfdCommonsockReadCb buf chunk).data,
        (ixfdCommonsockReadCb buf chunk).len⟩ ↔
      (0 : UInt8) ∉ chunk.bytes := by
  rw [← cString_eq_self_iff, cString_readCb]
  constructor
  · intro h
    have hprefix : cString chunk.bytes <+: chunk.bytes :=
      List.takeWhile_prefix _
    exact hprefix.eq_of_length_le h.inside
  · intro hself
    rw [hself]
    refine ⟨le_rfl, ?_⟩
    intro beyond sock s t fits callback refCb ret ht
    rw [handed_write ht]
    exact congrArg (fun given => [given]) (view_content ⟨chunk.bytes, beyond⟩)

/-- **Bytes survive the trip through Lua** exactly if none of them is NUL, on
both ways that a read callback is registered. -/
theorem bytes_survive_iff
    {size : Nat} (buf : ReadBuffer size) (chunk : Chunk size)
    (fn ctx : Nat) (wrapper : Option Nat) :
    (∃ call,
      ixlbSockSetReadCallbackLambda ⟨some (some fn)⟩ ctx
        (ixfdCommonsockReadCb buf chunk) = some call ∧
      (StringExact chunk call ∧ EchoExact chunk call ↔
        (0 : UInt8) ∉ chunk.bytes)) ∧
    (∃ call,
      ixlbxTcpBaseCbRead (some fn) wrapper
        (ixfdCommonsockReadCb buf chunk) = some call ∧
      (StringExact chunk call ↔ (0 : UInt8) ∉ chunk.bytes)) := by
  refine ⟨⟨_, rfl, ?_⟩, ⟨_, rfl, stringExact_iff buf chunk fn wrapper⟩⟩
  rw [stringExact_iff, echoExact_iff, and_self]

/-- Three bytes with a NUL: Lua gets one of them, and an echo hands the kernel
the terminator and a byte from behind the string. -/
theorem nul_byte_lost :
    ∃ (buf : ReadBuffer 4) (chunk : Chunk 4) (call : LuaCall Nat),
      chunk.bytes = [97, 0, 98] ∧
      ixlbSockSetReadCallbackLambda ⟨some (some 7)⟩ 0
        (ixfdCommonsockReadCb buf chunk) = some call ∧
      call.data = [97] ∧ call.len = 3 ∧
      (StringBlock.mk call.data fun _ => 255).view call.len = [97, 0, 255] ∧
      ¬ StringExact chunk call ∧ ¬ EchoExact chunk call := by
  refine ⟨⟨[1, 2, 3, 4, 5], rfl⟩, ⟨[97, 0, 98], by simp, by simp, by simp⟩, _,
    rfl, rfl, rfl, rfl, by decide, ?_, ?_⟩
  · intro h
    have hdata := h.data
    revert hdata
    decide
  · intro h
    have hinside := h.inside
    revert hinside
    decide

end LuaBytes
end Iojxd
