import ChatServer.ByteArray.ScatterGather

/-!
# Runs of a `ByteArray`

A run is any sequence of the public operations that all return. One step keeps
`Inv`, so every state a run reaches has it, and there a `write` replaces exactly
the bytes behind the position.
-/

namespace ChatServer.ByteArray

set_option autoImplicit false

open Splice

inductive Op where
  | write (buf : Str)
  | read (size : Nat)
  | setPosition (v : Nat)
  | getWriteBuffers (len : Nat)
  | clear
  deriving DecidableEq, Repr

def Op.apply (ba : ByteArray) : Op → Result ByteArray
  | .write buf => ba.write buf
  | .read size => do
      let (_, after) ← ba.read size
      .ok after
  | .setPosition v => ba.setPosition v
  | .getWriteBuffers len => do
      let (_, _, after) ← ba.getWriteBuffers len
      .ok after
  | .clear => .ok ba.clear

def run : ByteArray → List Op → Result ByteArray
  | ba, [] => .ok ba
  | ba, op :: rest => do
      let after ← op.apply ba
      run after rest

theorem step_inv {ba after : ByteArray} {op : Op} (inv : Inv ba) (done : op.apply ba = .ok after) :
    Inv after ∧ after.baseSize = ba.baseSize := by
  cases op with
  | write buf =>
      obtain ⟨result, returned, wrote⟩ := write_spec inv buf
      have same : result = after := Except.ok.inj (returned.symm.trans done)
      subst same
      exact ⟨wrote.inv, wrote.baseSize⟩
  | read size =>
      obtain ⟨⟨bytes, result⟩, returned, same⟩ := bind_eq_ok done
      have same : result = after := Except.ok.inj same
      subst same
      obtain ⟨enough, block⟩ := read_ok_inside inv returned
      rw [read_spec inv enough block] at returned
      cases returned
      refine ⟨seek_inv inv ?_, rfl⟩
      unfold getReadSize at enough
      have lower := inv.positionLe
      omega
  | setPosition v =>
      have bound : v ≤ ba.capacity := by
        by_contra beyond
        simp [Op.apply, ByteArray.setPosition, show v > ba.capacity by omega] at done
      have kept := set_position_inv inv bound done
      change ba.setPosition v = .ok after at done
      rw [set_position_walk inv bound] at done
      cases done
      exact ⟨kept, rfl⟩
  | getWriteBuffers len =>
      obtain ⟨buffers, returned, _⟩ := get_write_buffers_spec inv len
      have grown := add_capacity_grown inv len
      simp only [Op.apply, returned, bind_ok, Except.ok.injEq] at done
      subst done
      exact ⟨grown.inv, grown.baseSize⟩
  | clear =>
      have same : ba.clear = after := Except.ok.inj done
      subst same
      exact ⟨clear_inv inv, rfl⟩

theorem run_inv {ba after : ByteArray} (ops : List Op) (inv : Inv ba)
    (done : run ba ops = .ok after) : Inv after ∧ after.baseSize = ba.baseSize := by
  induction ops generalizing ba with
  | nil =>
      have same : ba = after := Except.ok.inj done
      subst same
      exact ⟨inv, rfl⟩
  | cons op rest induction =>
      obtain ⟨middle, stepped, remaining⟩ := bind_eq_ok done
      obtain ⟨middleInv, middleBase⟩ := step_inv inv stepped
      obtain ⟨afterInv, afterBase⟩ := induction middleInv remaining
      exact ⟨afterInv, afterBase.trans middleBase⟩

/-- The fields agree: the capacity counts whole blocks, position, size and capacity are in
order, and `m_cur` is the block of the position, null exactly at the end of the chain. -/
structure Consistent (baseSize : Nat) (ba : ByteArray) : Prop where
  capacityEq : ba.capacity = baseSize * ba.nodes.length
  positionLe : ba.position ≤ ba.size
  sizeLe : ba.size ≤ ba.capacity
  curBlock : ba.position < ba.capacity → ba.cur = some (ba.position / baseSize)
  curNull : ba.cur = none ↔ ba.position = ba.capacity

/-- `write(buf, n)` replaced the bytes `[pos, pos + n)` of the flat content and no other. -/
structure Replaced (ba : ByteArray) (buf : Str) (after : ByteArray) : Prop where
  position : after.position = ba.position + buf.length
  size : after.size = max ba.size (ba.position + buf.length)
  written : ∀ index, index < buf.length → after.flat[ba.position + index]? = buf[index]?
  kept : ∀ index, index < ba.capacity →
    index < ba.position ∨ ba.position + buf.length ≤ index → after.flat[index]? = ba.flat[index]?

theorem inv_consistent {ba : ByteArray} (inv : Inv ba) : Consistent ba.baseSize ba :=
  ⟨inv.capacityEq, inv.positionLe, inv.sizeLe, cur_some inv, cur_none_iff inv⟩

theorem wrote_replaced {ba after : ByteArray} {buf : Str} (inv : Inv ba)
    (wrote : Wrote ba buf after) : Replaced ba buf after := by
  obtain ⟨extra, flatEq⟩ := wrote.flat
  have positionLe := inv.positionLe
  have sizeLe := inv.sizeLe
  have flatLength := flat_length inv
  have inside : ba.position ≤ (ba.flat ++ extra).length := by
    rw [List.length_append]
    omega
  refine ⟨wrote.position, wrote.size, ?_, ?_⟩
  · intro index bound
    rw [flatEq, splice_get_inside _ _ _ _ inside (by omega) (by omega)]
    congr 1
    omega
  · intro index bound outside
    rw [flatEq, splice_get_outside _ _ _ _ inside outside,
      List.getElem?_append_left (by omega)]

/-- Every state a run reaches is consistent, the operations a run is made of return there,
and `write` replaces the bytes behind the position. A read returns when it asks for at least
one byte and no more than there are. -/
theorem run_consistent_and_writes_replace (baseSize : Nat) (fresh : Nat → Nat → UInt8)
    (ops : List Op) (ba : ByteArray) (basePos : 1 ≤ baseSize)
    (done : run (new baseSize fresh) ops = .ok ba) :
    Consistent baseSize ba ∧
      (∀ buf, ∃ after, ba.write buf = .ok after ∧ Replaced ba buf after) ∧
      (∀ v, v ≤ ba.capacity → ∃ after, ba.setPosition v = .ok after) ∧
      (∀ len, ∃ result, ba.getWriteBuffers len = .ok result) ∧
      (∀ size, 0 < size → size ≤ ba.getReadSize → ∃ result, ba.read size = .ok result) := by
  obtain ⟨inv, sameBase⟩ := run_inv ops (new_inv baseSize fresh basePos) done
  change ba.baseSize = baseSize at sameBase
  refine ⟨sameBase ▸ inv_consistent inv, ?_, ?_, ?_, ?_⟩
  · intro buf
    obtain ⟨after, returned, wrote⟩ := write_spec inv buf
    exact ⟨after, returned, wrote_replaced inv wrote⟩
  · intro v bound
    exact ⟨_, set_position_walk inv bound⟩
  · intro len
    obtain ⟨buffers, returned, _⟩ := get_write_buffers_spec inv len
    exact ⟨_, returned⟩
  · intro size some enough
    have sizeLe := inv.sizeLe
    have block : ba.position < ba.capacity := by
      unfold getReadSize at enough
      omega
    exact ⟨_, read_spec inv enough block⟩

theorem run_consistent_three_bytes :
    ∃ ba, run (new 2 fun _ _ => 0) [.write [1, 2, 3], .setPosition 1, .read 2] = .ok ba ∧
      Consistent 2 ba ∧ ba.position = 3 ∧ ba.cur = some 1 :=
  ⟨_, rfl, (run_consistent_and_writes_replace 2 (fun _ _ => 0)
    [.write [1, 2, 3], .setPosition 1, .read 2] _ (by decide) rfl).1, rfl, rfl⟩

end ChatServer.ByteArray
