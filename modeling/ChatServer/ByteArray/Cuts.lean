import ChatServer.ByteArray.Typed

/-!
# Readers as functions of the bytes

What a reader returns depends on the bytes behind the cursor alone, and it moves the cursor
over those it took. A `Cut` is such a reader without the buffer: the value it finds at the front
of a text and the number of bytes it takes.
-/

namespace ChatServer.ByteArray

set_option autoImplicit false

abbrev Cut (Value : Type) := Str → Result (Value × Nat)

namespace Cut

variable {Value Next : Type}

def done (value : Value) : Cut Value := fun _ => .ok (value, 0)

def byte : Cut UInt8
  | [] => .error (.thrown .outOfRange)
  | first :: _ => .ok (first, 1)

/-- One cut behind the other; the second may depend on the value of the first. -/
def bind (first : Cut Value) (second : Value → Cut Next) : Cut Next := fun bytes => do
  let (value, count) ← first bytes
  let (next, more) ← second value (bytes.drop count)
  .ok (next, count + more)

def map (change : Value → Next) (cut : Cut Value) : Cut Next := cut.bind fun value => done (change value)

theorem bind_of_ok {first : Cut Value} {bytes : Str} {value : Value} {count : Nat}
    (taken : first bytes = .ok (value, count)) (second : Value → Cut Next) :
    first.bind second bytes =
      (second value (bytes.drop count) >>= fun read => .ok (read.1, count + read.2)) := by
  simp only [bind, taken, bind_ok]

theorem bind_of_error {first : Cut Value} {bytes : Str} {fault : Fault}
    (failed : first bytes = .error fault) (second : Value → Cut Next) :
    first.bind second bytes = .error fault := by
  simp only [bind, failed, bind_error]

theorem bind_taken {first : Cut Value} {second : Value → Cut Next} {bytes : Str} {next : Next}
    {total : Nat} (taken : first.bind second bytes = .ok (next, total)) :
    ∃ value count more, first bytes = .ok (value, count) ∧
      second value (bytes.drop count) = .ok (next, more) ∧ total = count + more := by
  rcases bind_eq_ok taken with ⟨⟨value, count⟩, front, rest⟩
  rcases bind_eq_ok rest with ⟨⟨other, more⟩, back, same⟩
  rcases Prod.mk.inj (Except.ok.inj same) with ⟨nextSame, totalSame⟩
  rw [nextSame] at back
  exact ⟨value, count, more, front, back, totalSame.symm⟩

theorem map_taken {cut : Cut Value} {change : Value → Next} {bytes : Str} {next : Next}
    {total : Nat} (taken : cut.map change bytes = .ok (next, total)) :
    ∃ value, cut bytes = .ok (value, total) ∧ change value = next := by
  rcases bind_taken taken with ⟨value, count, more, front, back, totalSame⟩
  rcases Prod.mk.inj (Except.ok.inj back) with ⟨same, none⟩
  rw [totalSame, ← none, Nat.add_zero]
  exact ⟨value, front, same⟩

theorem map_of_ok {cut : Cut Value} {bytes : Str} {value : Value} {count : Nat}
    (taken : cut bytes = .ok (value, count)) (change : Value → Next) :
    cut.map change bytes = .ok (change value, count) := by
  rw [map, bind_of_ok taken]
  rfl

/-- A cut never takes more bytes than there are. -/
def Bounded (cut : Cut Value) : Prop :=
  ∀ bytes value count, cut bytes = .ok (value, count) → count ≤ bytes.length

theorem bounded_bind {first : Cut Value} {second : Value → Cut Next} (left : first.Bounded)
    (right : ∀ value, (second value).Bounded) : (first.bind second).Bounded := by
  intro bytes next total taken
  rcases bind_taken taken with ⟨value, count, more, front, back, same⟩
  have inside := left _ _ _ front
  have behind := right value _ _ _ back
  rw [List.length_drop] at behind
  omega

end Cut

/-- The reader returns what the cut finds and leaves the cursor behind it. -/
structure Cuts {Value : Type} (reader : ByteArray → Result (Value × ByteArray)) (cut : Cut Value) :
    Prop where
  bounded : cut.Bounded
  reads : ∀ ba, Inv ba → reader ba = cut ba.unread >>= fun read => .ok (read.1, ba.skip read.2)

section Rules

variable {Value Next : Type}

theorem skip_inv_of_le {ba : ByteArray} (inv : Inv ba) {count : Nat}
    (inside : count ≤ ba.unread.length) : Inv (ba.skip count) := by
  have split := (List.take_append_drop count ba.unread).symm
  have moved := skip_inv inv split
  rwa [List.length_take, Nat.min_eq_left inside] at moved

theorem skip_unread_drop (ba : ByteArray) (count : Nat) :
    (ba.skip count).unread = ba.unread.drop count := by
  rw [unread, unread, skip_contents, skip_position, List.drop_drop]

theorem cuts_ok {reader : ByteArray → Result (Value × ByteArray)} {cut : Cut Value}
    (cuts : Cuts reader cut) {ba after : ByteArray} (inv : Inv ba) {value : Value}
    (read : reader ba = .ok (value, after)) :
    ∃ count, cut ba.unread = .ok (value, count) ∧ after = ba.skip count ∧
      count ≤ ba.unread.length := by
  rw [cuts.reads ba inv] at read
  rcases bind_eq_ok read with ⟨⟨found, count⟩, taken, same⟩
  rcases Prod.mk.inj (Except.ok.inj same) with ⟨valueSame, afterSame⟩
  dsimp only at valueSame afterSame
  rw [valueSame] at taken
  exact ⟨count, taken, afterSame.symm, cuts.bounded _ _ _ taken⟩

theorem cuts_done (value : Value) : Cuts (fun ba => .ok (value, ba)) (Cut.done value) where
  bounded := by
    intro bytes other count taken
    cases taken
    exact Nat.zero_le _
  reads := by
    intro ba inv
    rw [Cut.done, bind_ok, skip_zero inv]

theorem cuts_byte : Cuts readFuint8 Cut.byte where
  bounded := by
    intro bytes value count taken
    cases bytes with
    | nil => cases taken
    | cons first rest =>
        cases taken
        exact Nat.succ_le_succ (Nat.zero_le _)
  reads := by
    intro ba inv
    cases front : ba.unread with
    | nil => exact read_fuint8_empty inv front
    | cons first rest => exact read_fuint8_reads ba.endian first ba rest inv rfl front

theorem cuts_bind {first : ByteArray → Result (Value × ByteArray)} {front : Cut Value}
    {back : Value → Cut Next} (second : Value → ByteArray → Result (Next × ByteArray))
    (left : Cuts first front) (right : ∀ value, Cuts (second value) (back value)) :
    Cuts (fun ba => first ba >>= fun read => second read.1 read.2) (front.bind back) where
  bounded := Cut.bounded_bind left.bounded fun value => (right value).bounded
  reads := by
    intro ba inv
    rw [left.reads ba inv]
    cases taken : front ba.unread with
    | error fault =>
        rw [Cut.bind_of_error taken]
        rfl
    | ok read =>
        have inside := left.bounded _ _ _ taken
        rw [Cut.bind_of_ok taken, bind_ok, bind_ok,
          (right read.1).reads _ (skip_inv_of_le inv inside), skip_unread_drop]
        cases back read.1 (ba.unread.drop read.2) with
        | error fault => rfl
        | ok next => rw [bind_ok, bind_ok, bind_ok, skip_skip]

theorem cuts_map {reader : ByteArray → Result (Value × ByteArray)} {cut : Cut Value}
    (change : Value → Next) (cuts : Cuts reader cut) :
    Cuts (fun ba => reader ba >>= fun read => .ok (change read.1, read.2)) (cut.map change) :=
  cuts_bind (fun value ba => .ok (change value, ba)) cuts fun value => cuts_done (change value)

end Rules

end ChatServer.ByteArray
