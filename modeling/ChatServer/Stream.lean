import ChatServer.ByteArray.Cursor
import ChatServer.ByteArray.ScatterGather

/-!
# Reading and writing a fixed number of bytes

`Stream::readFixSize` and `writeFixSize` over a connected `SocketStream`. One `recv` or `send`
moves at least one byte and at most what it was asked for, as many as the network likes;
`recv` returns 0 when the peer has sent nothing more. The loops hide that: a `readFixSize`
that succeeds has put exactly the next bytes of the connection at the cursor.
-/

namespace ChatServer

set_option autoImplicit false

open ChatServer.ByteArray
open Splice

structure Stream where
  /-- Bytes of the peer that were not received yet. -/
  incoming : Str
  outgoing : Str
  /-- How many bytes, less one, the next calls of `recv` and `send` are ready to move. -/
  cuts : Nat → Nat
  /-- `MAX_LEN`, the configured `socket.buff_size`. -/
  maxLen : Nat
  maxLenPos : 0 < maxLen

namespace Stream

def read (stream : Stream) (ba : ByteArray) (length : Nat) :
    Result (Nat × Stream × ByteArray) := do
  let (len, iovs, ba) ← ba.getWriteBuffers length
  let rt := min (stream.cuts 0 + 1) (min len stream.incoming.length)
  let ba := { ba with nodes := scatter ba.nodes iovs (stream.incoming.take rt) }
  let stream := { stream with
    incoming := stream.incoming.drop rt
    cuts := fun call => stream.cuts (call + 1) }
  if 0 < rt then
    let ba ← ba.setPosition (ba.position + rt)
    .ok (rt, stream, ba)
  else .ok (rt, stream, ba)

/-- The loop of `readFixSize`. Each round receives at least one byte or ends it, so as many
rounds as bytes are enough. -/
def readFixLoop (length : Nat) : Nat → Stream → ByteArray → Nat → Result (Int × Stream × ByteArray)
  | 0, stream, ba, left =>
      if 0 < left then .error (.undefined .endlessLoop) else .ok (int32 length, stream, ba)
  | rounds + 1, stream, ba, left =>
      if 0 < left then do
        let (len, stream, ba) ← stream.read ba (min left stream.maxLen)
        if len = 0 then .ok (0, stream, ba)
        else readFixLoop length rounds stream ba (left - len)
      else .ok (int32 length, stream, ba)

def readFixSize (stream : Stream) (ba : ByteArray) (length : Nat) :
    Result (Int × Stream × ByteArray) := readFixLoop length length stream ba length

/-- `SocketStream::write(ByteArray::ptr ba, size_t length)`. -/
def write (stream : Stream) (ba : ByteArray) (length : Nat) :
    Result (Nat × Stream × ByteArray) := do
  let (len, iovs) ← ba.getReadBuffers length
  let rt := min (stream.cuts 0 + 1) len
  let stream := { stream with
    outgoing := stream.outgoing ++ (gather ba.nodes iovs).take rt
    cuts := fun call => stream.cuts (call + 1) }
  if 0 < rt then
    let ba ← ba.setPosition (ba.position + rt)
    .ok (rt, stream, ba)
  else .ok (rt, stream, ba)

def writeFixLoop (length : Nat) : Nat → Stream → ByteArray → Nat → Result (Int × Stream × ByteArray)
  | 0, stream, ba, left =>
      if 0 < left then .error (.undefined .endlessLoop) else .ok (int32 length, stream, ba)
  | rounds + 1, stream, ba, left =>
      if 0 < left then do
        let (len, stream, ba) ← stream.write ba (min left stream.maxLen)
        if len = 0 then .ok (0, stream, ba)
        else writeFixLoop length rounds stream ba (left - len)
      else .ok (int32 length, stream, ba)

def writeFixSize (stream : Stream) (ba : ByteArray) (length : Nat) :
    Result (Int × Stream × ByteArray) := writeFixLoop length length stream ba length

def Snug (ba : ByteArray) (count : Nat) (after : ByteArray) : Prop :=
  after.capacity < max (ba.capacity + 1) (ba.position + count + ba.baseSize)

theorem snug_refl (ba : ByteArray) (count : Nat) : Snug ba count ba := by
  unfold Snug
  omega

theorem add_capacity_snug {ba : ByteArray} (inv : Inv ba) (count : Nat) :
    Snug ba count (ba.addCapacity count) := by
  have positionLe : ba.position ≤ ba.capacity := Nat.le_trans inv.positionLe inv.sizeLe
  have basePos := inv.basePos
  unfold Snug addCapacity getCapacity
  by_cases enough : count = 0 ∨ count ≤ ba.capacity - ba.position
  · rw [if_pos enough]
    omega
  · rw [if_neg enough]
    dsimp only
    have rounded := Nat.mul_div_le (count - (ba.capacity - ba.position) + ba.baseSize - 1) ba.baseSize
    omega

theorem read_wrote {stream : Stream} {ba : ByteArray} (inv : Inv ba) {length : Nat}
    (asked : 0 < length) (available : stream.incoming ≠ []) :
    ∃ rt after next, stream.read ba length = .ok (rt, next, after) ∧ 0 < rt ∧ rt ≤ length ∧
      rt ≤ stream.incoming.length ∧ next.incoming = stream.incoming.drop rt ∧
      next.maxLen = stream.maxLen ∧ Wrote ba (stream.incoming.take rt) after ∧
      Snug ba length after := by
  have some := List.length_pos_iff.mpr available
  obtain ⟨buffers, listed, _⟩ := get_write_buffers_spec inv length
  generalize count : min (stream.cuts 0 + 1) (min length stream.incoming.length) = rt
  have taken : (stream.incoming.take rt).length = rt := by
    rw [List.length_take]
    omega
  obtain ⟨after, moved, wrote, sameCapacity, _⟩ :=
    fill_wrote inv listed (show (stream.incoming.take rt).length ≤ length by omega)
  have snug : Snug ba length after := by
    rw [Snug, sameCapacity]
    exact add_capacity_snug inv length
  rw [taken] at moved
  let next := { stream with
    incoming := stream.incoming.drop rt
    cuts := fun call => stream.cuts (call + 1) }
  refine ⟨rt, after, next, ?_, by omega, by omega, by omega, rfl, rfl, wrote, snug⟩
  rw [read, listed, bind_ok]
  dsimp only
  rw [count, if_pos (by omega), ← fill, moved]
  rfl

/-- A whole `readFixSize` puts the bytes at the cursor, however they arrive. The induction is
on the rounds; the bytes received so far and those still to come make up `bytes`. -/
theorem read_fix_loop_put (length : Nat) (rounds : Nat) :
    ∀ (stream : Stream) (ba : ByteArray) (bytes rest : Str), Inv ba → bytes.length ≤ rounds →
      stream.incoming = bytes ++ rest →
      ∃ next after, readFixLoop length rounds stream ba bytes.length =
          .ok (int32 length, next, after) ∧
        next.incoming = rest ∧ Put ba bytes after ∧ Snug ba bytes.length after := by
  induction rounds with
  | zero =>
      intro stream ba bytes rest inv enough front
      have none : bytes = [] := List.length_eq_zero_iff.mp (Nat.le_zero.mp enough)
      subst none
      exact ⟨stream, ba, if_neg (Nat.lt_irrefl _), front, put_nil inv, snug_refl ba _⟩
  | succ rounds induction =>
      intro stream ba bytes rest inv enough front
      by_cases none : bytes = []
      · subst none
        exact ⟨stream, ba, if_neg (Nat.lt_irrefl _), front, put_nil inv, snug_refl ba _⟩
      have some := List.length_pos_iff.mpr none
      have available : stream.incoming ≠ [] := by
        rw [front]
        exact List.append_ne_nil_of_left_ne_nil none _
      obtain ⟨rt, middle, next, received, positive, within, _, left, sameMax, wrote, snug⟩ :=
        read_wrote inv (Nat.lt_min.mpr ⟨some, stream.maxLenPos⟩) available
      have short : rt ≤ bytes.length := Nat.le_trans within (Nat.min_le_left _ _)
      have put := wrote_put inv wrote
      rw [front, List.take_append_of_le_length short] at put
      rw [front, List.drop_append_of_le_length short] at left
      have dropped : (bytes.drop rt).length = bytes.length - rt := List.length_drop
      have taken : (bytes.take rt).length = rt := by
        rw [List.length_take]
        exact Nat.min_eq_left short
      obtain ⟨last, after, looped, behind, putRest, snugRest⟩ :=
        induction next middle (bytes.drop rt) rest put.inv (by omega) left
      refine ⟨last, after, ?_, behind, ?_, ?_⟩
      · rw [readFixLoop, if_pos some, received, bind_ok]
        dsimp only
        rw [if_neg (by omega), ← dropped, looped]
      · have joined := put_trans inv put putRest
        rwa [List.take_append_drop] at joined
      · have position := put.position
        have baseSize := put.baseSize
        unfold Snug at snug snugRest ⊢
        rw [taken] at position
        rw [position, baseSize, dropped] at snugRest
        omega

theorem read_fix_size_put (stream : Stream) {ba : ByteArray} (inv : Inv ba) (bytes rest : Str)
    (front : stream.incoming = bytes ++ rest) :
    ∃ next after, stream.readFixSize ba bytes.length = .ok (int32 bytes.length, next, after) ∧
      next.incoming = rest ∧ Put ba bytes after ∧ Snug ba bytes.length after :=
  read_fix_loop_put bytes.length bytes.length stream ba bytes rest inv (Nat.le_refl _) front

theorem write_sends {stream : Stream} {ba : ByteArray} (inv : Inv ba) {length : Nat}
    (asked : 0 < length) (available : length ≤ ba.getReadSize) :
    ∃ rt next, stream.write ba length = .ok (rt, next, ba.skip rt) ∧ 0 < rt ∧ rt ≤ length ∧
      next.outgoing = stream.outgoing ++ ba.unread.take rt ∧ next.maxLen = stream.maxLen := by
  have positionLe := inv.positionLe
  obtain ⟨buffers, listed, covered⟩ := get_read_buffers_spec inv length
  rw [Nat.min_eq_left available] at listed covered
  rw [getReadSize] at available
  generalize count : min (stream.cuts 0 + 1) length = rt
  have sent : (gather ba.nodes buffers).take rt = ba.unread.take rt := by
    rw [covered, ← unread, List.take_take, Nat.min_eq_left (by omega)]
  let next := { stream with
    outgoing := stream.outgoing ++ ba.unread.take rt
    cuts := fun call => stream.cuts (call + 1) }
  refine ⟨rt, next, ?_, by omega, by omega, rfl, rfl⟩
  rw [write, listed, bind_ok]
  dsimp only
  rw [count, if_pos (by omega), sent, set_position_seek inv (by omega)]
  rfl

theorem write_fix_loop_sends (length : Nat) (rounds : Nat) :
    ∀ (stream : Stream) (ba : ByteArray), Inv ba → ba.unread.length ≤ rounds →
      ∃ next after, writeFixLoop length rounds stream ba ba.unread.length =
          .ok (int32 length, next, after) ∧
        next.outgoing = stream.outgoing ++ ba.unread ∧ after.size = ba.size := by
  induction rounds with
  | zero =>
      intro stream ba inv enough
      have none : ba.unread = [] := List.length_eq_zero_iff.mp (Nat.le_zero.mp enough)
      rw [none]
      exact ⟨stream, ba, if_neg (Nat.lt_irrefl _), (List.append_nil _).symm, rfl⟩
  | succ rounds induction =>
      intro stream ba inv enough
      by_cases none : ba.unread = []
      · rw [none]
        exact ⟨stream, ba, if_neg (Nat.lt_irrefl _), (List.append_nil _).symm, rfl⟩
      have some := List.length_pos_iff.mpr none
      have total := unread_length inv
      obtain ⟨rt, next, wrote, positive, within, sent, _⟩ := write_sends inv
        (Nat.lt_min.mpr ⟨some, stream.maxLenPos⟩)
        (Nat.le_trans (Nat.min_le_left _ _) (Nat.le_of_eq total))
      have short : rt ≤ ba.unread.length := Nat.le_trans within (Nat.min_le_left _ _)
      have taken : (ba.unread.take rt).length = rt := by
        rw [List.length_take]
        exact Nat.min_eq_left short
      have split := (List.take_append_drop rt ba.unread).symm
      have restInv := skip_inv inv split
      have behind := skip_unread split
      rw [taken] at restInv behind
      have left : (ba.skip rt).unread.length = ba.unread.length - rt := by
        rw [behind, List.length_drop]
      obtain ⟨last, after, looped, sentRest, sameSize⟩ :=
        induction next (ba.skip rt) restInv (by omega)
      refine ⟨last, after, ?_, ?_, sameSize⟩
      · rw [writeFixLoop, if_pos some, wrote, bind_ok]
        dsimp only
        rw [if_neg (by omega), ← left, looped]
      · rw [sentRest, sent, behind, List.append_assoc, List.take_append_drop]

/-- A whole `writeFixSize` of everything behind the cursor sends exactly that. -/
theorem write_fix_size_sends (stream : Stream) {ba : ByteArray} (inv : Inv ba) :
    ∃ next after, stream.writeFixSize ba ba.getReadSize =
        .ok (int32 ba.getReadSize, next, after) ∧
      next.outgoing = stream.outgoing ++ ba.unread ∧ after.size = ba.size := by
  rw [← unread_length inv]
  exact write_fix_loop_sends _ _ stream ba inv (Nat.le_refl _)

/-- `SocketStream::read(void* buffer, size_t length)`: the bytes that one `recv` stores. -/
def readBuffer (stream : Stream) (length : Nat) : Str × Stream :=
  let rt := min (stream.cuts 0 + 1) (min length stream.incoming.length)
  (stream.incoming.take rt,
    { stream with
      incoming := stream.incoming.drop rt
      cuts := fun call => stream.cuts (call + 1) })

/-- The loop of `readFixSize(void* buffer, size_t length)`; `buffer` holds what was received. -/
def readFixBufferLoop (length : Nat) : Nat → Stream → Str → Nat → Result (Int × Str × Stream)
  | 0, stream, buffer, left =>
      if 0 < left then .error (.undefined .endlessLoop) else .ok (int32 length, buffer, stream)
  | rounds + 1, stream, buffer, left =>
      if 0 < left then
        let (bytes, stream) := stream.readBuffer (min left stream.maxLen)
        if bytes.length = 0 then .ok (0, buffer, stream)
        else readFixBufferLoop length rounds stream (buffer ++ bytes) (left - bytes.length)
      else .ok (int32 length, buffer, stream)

def readFixBuffer (stream : Stream) (length : Nat) : Result (Int × Str × Stream) :=
  let left := if length < 2 ^ 63 then length else 0
  readFixBufferLoop length left stream [] left

/-- `SocketStream::write(const void* buffer, size_t length)`: how many bytes one `send` takes. -/
def writeBuffer (stream : Stream) (bytes : Str) : Nat × Stream :=
  let rt := min (stream.cuts 0 + 1) bytes.length
  (rt,
    { stream with
      outgoing := stream.outgoing ++ bytes.take rt
      cuts := fun call => stream.cuts (call + 1) })

def writeFixBufferLoop (length : Nat) : Nat → Stream → Str → Result (Int × Stream)
  | 0, stream, left =>
      if 0 < left.length then .error (.undefined .endlessLoop) else .ok (int32 length, stream)
  | rounds + 1, stream, left =>
      if 0 < left.length then
        let (len, stream) := stream.writeBuffer (left.take stream.maxLen)
        if len = 0 then .ok (0, stream)
        else writeFixBufferLoop length rounds stream (left.drop len)
      else .ok (int32 length, stream)

def writeFixBuffer (stream : Stream) (bytes : Str) : Result (Int × Stream) :=
  writeFixBufferLoop bytes.length bytes.length stream bytes

theorem read_fix_buffer_loop_takes (length : Nat) (rounds : Nat) :
    ∀ (stream : Stream) (buffer bytes rest : Str), bytes.length ≤ rounds →
      stream.incoming = bytes ++ rest →
      ∃ next, readFixBufferLoop length rounds stream buffer bytes.length =
          .ok (int32 length, buffer ++ bytes, next) ∧
        next.incoming = rest ∧ next.outgoing = stream.outgoing := by
  induction rounds with
  | zero =>
      intro stream buffer bytes rest enough front
      have none : bytes = [] := List.length_eq_zero_iff.mp (Nat.le_zero.mp enough)
      subst none
      exact ⟨stream, by simp [readFixBufferLoop], front, rfl⟩
  | succ rounds induction =>
      intro stream buffer bytes rest enough front
      by_cases none : bytes = []
      · subst none
        exact ⟨stream, by simp [readFixBufferLoop], front, rfl⟩
      have some := List.length_pos_iff.mpr none
      have incoming : stream.incoming.length = bytes.length + rest.length := by
        rw [front, List.length_append]
      have maxLenPos := stream.maxLenPos
      generalize count : min (stream.cuts 0 + 1)
        (min (min bytes.length stream.maxLen) stream.incoming.length) = rt
      have short : rt ≤ bytes.length := by omega
      have taken : stream.incoming.take rt = bytes.take rt := by
        rw [front, List.take_append_of_le_length short]
      have left : stream.incoming.drop rt = bytes.drop rt ++ rest := by
        rw [front, List.drop_append_of_le_length short]
      have dropped : (bytes.drop rt).length = bytes.length - rt := List.length_drop
      have moved : (bytes.take rt).length = rt := by
        rw [List.length_take]
        exact Nat.min_eq_left short
      rcases induction ⟨stream.incoming.drop rt, stream.outgoing,
        fun call => stream.cuts (call + 1), stream.maxLen, stream.maxLenPos⟩
        (buffer ++ bytes.take rt) (bytes.drop rt) rest (by omega) left with
        ⟨next, looped, behind, outgoing⟩
      refine ⟨next, ?_, behind, outgoing⟩
      rw [readFixBufferLoop, if_pos some]
      simp only [readBuffer, count, taken, moved]
      rw [if_neg (by omega), ← dropped, looped, List.append_assoc, List.take_append_drop]

/-- A whole `readFixSize` into a buffer takes exactly the next bytes, however they arrive. -/
theorem read_fix_buffer_takes (stream : Stream) (bytes rest : Str)
    (front : stream.incoming = bytes ++ rest) (small : bytes.length < 2 ^ 63) :
    ∃ next, stream.readFixBuffer bytes.length = .ok (int32 bytes.length, bytes, next) ∧
      next.incoming = rest ∧ next.outgoing = stream.outgoing := by
  have read := read_fix_buffer_loop_takes bytes.length bytes.length stream [] bytes rest
    (Nat.le_refl _) front
  rw [List.nil_append] at read
  simp only [readFixBuffer, if_pos small]
  exact read

/-- What a whole `readFixSize` has stored when it returns, whether or not it got all. -/
structure Took (stream : Stream) (length : Nat) (rt : Int) (bytes : Str) (after : Stream) :
    Prop where
  front : stream.incoming = bytes ++ after.incoming
  short : bytes.length ≤ length
  full : 0 < rt → bytes.length = length

theorem read_fix_buffer_loop_took (length : Nat) (rounds : Nat) :
    ∀ (stream : Stream) (buffer : Str) (left : Nat), left ≤ rounds →
      ∃ rt bytes after, readFixBufferLoop length rounds stream buffer left =
          .ok (rt, buffer ++ bytes, after) ∧
        stream.Took left rt bytes after := by
  induction rounds with
  | zero =>
      intro stream buffer left enough
      have done : left = 0 := Nat.le_zero.mp enough
      subst done
      refine ⟨int32 length, [], stream, ?_, ⟨rfl, Nat.le_refl _, fun _ => rfl⟩⟩
      simp [readFixBufferLoop]
  | succ rounds induction =>
      intro stream buffer left enough
      rw [readFixBufferLoop]
      by_cases some : 0 < left
      · have maxLenPos := stream.maxLenPos
        generalize count : min (stream.cuts 0 + 1)
          (min (min left stream.maxLen) stream.incoming.length) = rt
        have moved : (stream.incoming.take rt).length = rt := by
          rw [List.length_take]
          omega
        rw [if_pos some]
        simp only [readBuffer, count, moved]
        by_cases ended : rt = 0
        · rw [if_pos ended]
          refine ⟨0, [], _, by rw [List.append_nil], ⟨?_, Nat.zero_le _, ?_⟩⟩
          · rw [ended]
            rfl
          · intro positive
            exact absurd positive (by decide)
        · rw [if_neg ended]
          rcases induction ⟨stream.incoming.drop rt, stream.outgoing,
            fun call => stream.cuts (call + 1), stream.maxLen, stream.maxLenPos⟩
            (buffer ++ stream.incoming.take rt) (left - rt) (by omega) with
            ⟨value, bytes, after, looped, took⟩
          refine ⟨value, stream.incoming.take rt ++ bytes, after, ?_, ?_, ?_, ?_⟩
          · rw [looped, List.append_assoc]
          · have behind := took.front
            dsimp only at behind
            rw [List.append_assoc, ← behind, List.take_append_drop]
          · have short := took.short
            rw [List.length_append, moved]
            omega
          · intro positive
            have full := took.full positive
            rw [List.length_append, moved, full]
            omega
      · rw [if_neg some]
        have done : left = 0 := by omega
        refine ⟨int32 length, [], stream, by rw [List.append_nil], ⟨rfl, Nat.zero_le _, ?_⟩⟩
        intro _
        rw [done]
        rfl

theorem read_fix_buffer_took (stream : Stream) {length : Nat} (small : length < 2 ^ 63) :
    ∃ rt bytes after, stream.readFixBuffer length = .ok (rt, bytes, after) ∧
      stream.Took length rt bytes after := by
  rcases read_fix_buffer_loop_took length length stream [] length (Nat.le_refl _) with
    ⟨rt, bytes, after, looped, took⟩
  refine ⟨rt, bytes, after, ?_, took⟩
  simp only [readFixBuffer, if_pos small]
  exact looped

theorem read_fix_buffer_wide (stream : Stream) {length : Nat} (wide : 2 ^ 63 ≤ length) :
    stream.readFixBuffer length = .ok (int32 length, [], stream) := by
  simp only [readFixBuffer, if_neg (Nat.not_lt.mpr wide)]
  rfl

theorem write_fix_buffer_loop_sends (length : Nat) (rounds : Nat) :
    ∀ (stream : Stream) (left : Str), left.length ≤ rounds →
      ∃ next, writeFixBufferLoop length rounds stream left = .ok (int32 length, next) ∧
        next.outgoing = stream.outgoing ++ left ∧ next.incoming = stream.incoming := by
  induction rounds with
  | zero =>
      intro stream left enough
      have none : left = [] := List.length_eq_zero_iff.mp (Nat.le_zero.mp enough)
      subst none
      exact ⟨stream, by simp [writeFixBufferLoop], by simp, rfl⟩
  | succ rounds induction =>
      intro stream left enough
      by_cases none : left = []
      · subst none
        exact ⟨stream, by simp [writeFixBufferLoop], by simp, rfl⟩
      have some := List.length_pos_iff.mpr none
      have maxLenPos := stream.maxLenPos
      generalize count : min (stream.cuts 0 + 1) (left.take stream.maxLen).length = rt
      have short : rt ≤ stream.maxLen ∧ 0 < rt := by
        rw [List.length_take] at count
        omega
      have sent : (left.take stream.maxLen).take rt = left.take rt := by
        rw [List.take_take, Nat.min_eq_left short.1]
      have dropped : (left.drop rt).length = left.length - rt := List.length_drop
      rcases induction ⟨stream.incoming, stream.outgoing ++ left.take rt,
        fun call => stream.cuts (call + 1), stream.maxLen, stream.maxLenPos⟩
        (left.drop rt) (by omega) with ⟨next, looped, outgoing, incoming⟩
      refine ⟨next, ?_, ?_, incoming⟩
      · rw [writeFixBufferLoop, if_pos some]
        simp only [writeBuffer, count, sent]
        rw [if_neg (by omega), looped]
      · rw [outgoing, List.append_assoc, List.take_append_drop]

theorem write_fix_buffer_sends (stream : Stream) (bytes : Str) :
    ∃ next, stream.writeFixBuffer bytes = .ok (int32 bytes.length, next) ∧
      next.outgoing = stream.outgoing ++ bytes ∧ next.incoming = stream.incoming :=
  write_fix_buffer_loop_sends bytes.length bytes.length stream bytes (Nat.le_refl _)

end Stream
end ChatServer
