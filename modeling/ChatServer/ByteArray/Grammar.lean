import ChatServer.ByteArray.Typed

/-!
# What readers take, refuse and break on

A reader that is given bytes from the network can do three things: take a complete text and
return its value, throw, or run into undefined behaviour. A `ByteLanguage` says which texts are
of the first kind and which beginnings are of the last; a reader that follows it throws on
everything else. Languages are put together as the readers are.
-/

namespace ChatServer.ByteArray

set_option autoImplicit false

structure ByteLanguage (Value : Type) where
  complete : Str → Value → Prop
  harmful : Str → Prop

namespace ByteLanguage

variable {Value Next : Type}

/-- One text behind the other; the second may depend on the value of the first. -/
def bind (first : ByteLanguage Value) (second : Value → ByteLanguage Next) :
    ByteLanguage Next where
  complete text result :=
    ∃ front value back, text = front ++ back ∧ first.complete front value ∧
      (second value).complete back result
  harmful text :=
    first.harmful text ∨ ∃ front value back, text = front ++ back ∧ first.complete front value ∧
      (second value).harmful back

def map (change : Value → Next) (language : ByteLanguage Value) : ByteLanguage Next where
  complete text result := ∃ value, language.complete text value ∧ change value = result
  harmful := language.harmful

/-- Nothing is read. -/
def done (value : Value) : ByteLanguage Value where
  complete text result := text = [] ∧ value = result
  harmful _ := False

def pit : ByteLanguage Value where
  complete _ _ := False
  harmful _ := True

def byte : ByteLanguage UInt8 where
  complete text value := text = [value]
  harmful _ := False

end ByteLanguage

/-- The reader follows the language on every buffer that holds less than `2^28` bytes. -/
structure Follows {Value : Type} (reader : ByteArray → Result (Value × ByteArray))
    (language : ByteLanguage Value) : Prop where
  takes : ∀ endian bytes value, language.complete bytes value → Reads reader endian bytes value
  breaks : ∀ ba, Inv ba → ba.unread.length < 2 ^ 28 → language.harmful ba.unread →
    ∃ cause, reader ba = .error (.undefined cause)
  otherwise : ∀ ba, Inv ba → ba.unread.length < 2 ^ 28 →
    (∃ bytes value rest, ba.unread = bytes ++ rest ∧ language.complete bytes value) ∨
      language.harmful ba.unread ∨ ∃ exception, reader ba = .error (.thrown exception)

section Rules

variable {Value Next : Type}

theorem follows_bind {first : ByteArray → Result (Value × ByteArray)} {front : ByteLanguage Value}
    {back : Value → ByteLanguage Next} (second : Value → ByteArray → Result (Next × ByteArray))
    (left : Follows first front) (right : ∀ value, Follows (second value) (back value)) :
    Follows (fun ba => first ba >>= fun read => second read.1 read.2) (front.bind back) where
  takes := by
    rintro endian bytes result ⟨head, value, tail, rfl, headComplete, tailComplete⟩
    exact reads_bind second (left.takes endian head value headComplete)
      ((right value).takes endian tail result tailComplete)
  breaks := by
    rintro ba inv small (harmful | ⟨head, value, tail, split, headComplete, harmful⟩)
    · obtain ⟨cause, broke⟩ := left.breaks ba inv small harmful
      exact ⟨cause, by rw [broke, bind_error]⟩
    · have taken := left.takes ba.endian head value headComplete ba tail inv rfl split
      have shorter : tail.length ≤ ba.unread.length := by
        rw [split, List.length_append]
        exact Nat.le_add_left _ _
      rw [← skip_unread split] at harmful shorter
      obtain ⟨cause, broke⟩ := (right value).breaks _ (skip_inv inv split)
        (Nat.lt_of_le_of_lt shorter small) harmful
      exact ⟨cause, by rw [taken, bind_ok, broke]⟩
  otherwise := by
    intro ba inv small
    rcases left.otherwise ba inv small with
      ⟨head, value, tail, split, headComplete⟩ | harmful | ⟨exception, threw⟩
    · have taken := left.takes ba.endian head value headComplete ba tail inv rfl split
      have shorter : tail.length ≤ ba.unread.length := by
        rw [split, List.length_append]
        exact Nat.le_add_left _ _
      rw [← skip_unread split] at shorter
      have next := (right value).otherwise _ (skip_inv inv split)
        (Nat.lt_of_le_of_lt shorter small)
      rw [skip_unread split] at next
      rcases next with ⟨bytes, result, rest, tailSplit, tailComplete⟩ | harmful | ⟨exception, threw⟩
      · left
        refine ⟨head ++ bytes, result, rest, ?_, head, value, bytes, rfl, headComplete, tailComplete⟩
        rw [split, tailSplit, List.append_assoc]
      · exact .inr (.inl (.inr ⟨head, value, tail, split, headComplete, harmful⟩))
      · exact .inr (.inr ⟨exception, by rw [taken, bind_ok, threw]⟩)
    · exact .inr (.inl (.inl harmful))
    · exact .inr (.inr ⟨exception, by rw [threw, bind_error]⟩)

theorem follows_map {reader : ByteArray → Result (Value × ByteArray)}
    {language : ByteLanguage Value}
    (change : Value → Next) (follows : Follows reader language) :
    Follows (fun ba => reader ba >>= fun read => .ok (change read.1, read.2))
      (language.map change) where
  takes := by
    rintro endian bytes result ⟨value, complete, rfl⟩
    exact reads_map change (follows.takes endian bytes value complete)
  breaks := by
    intro ba inv small harmful
    obtain ⟨cause, broke⟩ := follows.breaks ba inv small harmful
    exact ⟨cause, by rw [broke, bind_error]⟩
  otherwise := by
    intro ba inv small
    rcases follows.otherwise ba inv small with
      ⟨bytes, value, rest, split, complete⟩ | harmful | ⟨exception, threw⟩
    · exact .inl ⟨bytes, change value, rest, split, value, complete, rfl⟩
    · exact .inr (.inl harmful)
    · exact .inr (.inr ⟨exception, by rw [threw, bind_error]⟩)

theorem follows_done (value : Value) :
    Follows (fun ba => .ok (value, ba)) (ByteLanguage.done value) where
  takes := by
    rintro endian bytes result ⟨rfl, rfl⟩ ba rest inv order split
    dsimp only
    rw [List.length_nil, skip_zero inv]
  breaks := by
    intro ba inv small harmful
    exact harmful.elim
  otherwise := by
    intro ba inv small
    exact .inl ⟨[], value, ba.unread, rfl, rfl, rfl⟩

theorem follows_pit (cause : Undefined) :
    Follows (fun _ => .error (.undefined cause)) (ByteLanguage.pit : ByteLanguage Value) where
  takes := by
    intro endian bytes value complete
    exact complete.elim
  breaks := by
    intro ba inv small harmful
    exact ⟨cause, rfl⟩
  otherwise := by
    intro ba inv small
    exact .inr (.inl trivial)

/-- Languages with the same texts are followed by the same readers. -/
theorem follows_congr {reader : ByteArray → Result (Value × ByteArray)}
    {language other : ByteLanguage Value} (follows : Follows reader language)
    (sameComplete : ∀ text value, other.complete text value ↔ language.complete text value)
    (sameHarmful : ∀ text, other.harmful text ↔ language.harmful text) :
    Follows reader other := by
  have equal : other = language := by
    cases other
    cases language
    congr
    · funext text value
      exact propext (sameComplete text value)
    · funext text
      exact propext (sameHarmful text)
  rw [equal]
  exact follows

theorem follows_byte : Follows readFuint8 ByteLanguage.byte where
  takes := by
    rintro endian bytes value rfl
    exact read_fuint8_reads endian value
  breaks := by
    intro ba inv small harmful
    exact harmful.elim
  otherwise := by
    intro ba inv small
    cases front : ba.unread with
    | nil => exact .inr (.inr ⟨_, read_fuint8_empty inv front⟩)
    | cons value rest => exact .inl ⟨[value], value, rest, rfl, rfl⟩

end Rules

end ChatServer.ByteArray
