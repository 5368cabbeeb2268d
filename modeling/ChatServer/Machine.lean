import Mathlib.Data.List.Basic
import Mathlib.Tactic.Ring

/-!
# Outcomes of the C++ code

The server is built for x86-64 Linux. A call either returns, throws a C++
exception that some caller may catch, reaches undefined behaviour, after which
nothing is promised (a null pointer that is followed is the typical case), or
fails an assertion, which ends the process. They are kept apart because callers
treat them differently: `catch (...)` stops an exception and nothing else.
-/

namespace ChatServer

set_option autoImplicit false

inductive CppException where
  | outOfRange
  | lengthError
  deriving DecidableEq, Repr

inductive Undefined where
  | nullDeref
  | signedOverflow
  | shiftTooWide
  | outOfBounds
  | endlessLoop
  | invalidDelete
  deriving DecidableEq, Repr

inductive Fault where
  | thrown (exception : CppException)
  | undefined (cause : Undefined)
  | aborted
  deriving DecidableEq, Repr

abbrev Result := Except Fault

/-- Undefined behaviour or a failed assertion: no caller gets to go on. -/
def Fatal {Value : Type} (outcome : Result Value) : Prop :=
  ∃ fault, outcome = .error fault ∧ ∀ exception, fault ≠ .thrown exception

def faultOf {Value : Type} : Result Value → Option Fault
  | .error fault => some fault
  | .ok _ => none

/-- Contents of a `std::string`: any bytes, `NUL` included. -/
abbrev Str := List UInt8

def maxStrSize : Nat := 2 ^ 63

/-- The conversion of an integer to a 32-bit `int`, two's complement. -/
def int32 (value : Int) : Int := value.bmod (2 ^ 32)

theorem int32_eq {value : Int} (lower : -2 ^ 31 ≤ value) (upper : value < 2 ^ 31) :
    int32 value = value := by
  rw [int32, Int.bmod_eq_of_le] <;> omega

theorem int32_of_small {length : Nat} (small : length < 2 ^ 31) :
    int32 (length : Int) = length := int32_eq (by omega) (by omega)

@[simp] theorem int32_int32 (value : Int) : int32 (int32 value) = int32 value := Int.bmod_bmod

@[simp] theorem int32_int32_add (first second : Int) :
    int32 (int32 first + second) = int32 (first + second) := Int.bmod_add_bmod

@[simp] theorem int32_add_int32 (first second : Int) :
    int32 (first + int32 second) = int32 (first + second) := Int.add_bmod_bmod

theorem int32_bounds (value : Int) : -2 ^ 31 ≤ int32 value ∧ int32 value < 2 ^ 31 := by
  have lower := Int.le_bmod (x := value) (m := 2 ^ 32) (by decide)
  have upper := Int.bmod_lt (x := value) (m := 2 ^ 32) (by decide)
  unfold int32
  omega

/-- A wrapped value differs from the exact one by a multiple of 2^32. -/
theorem int32_wraps (value : Int) : ∃ turns : Int, value = int32 value + 2 ^ 32 * turns :=
  ⟨value.bdiv (2 ^ 32), (Int.bmod_add_bdiv value (2 ^ 32)).symm⟩

theorem int32_add_turns (value turns : Int) : int32 (value + 2 ^ 32 * turns) = int32 value :=
  Int.add_mul_bmod_self_left value (2 ^ 32) turns

theorem int32_overflow {value : Int} (lower : 2 ^ 31 ≤ value) (upper : value < 2 ^ 32 + 2 ^ 31) :
    int32 value = value - 2 ^ 32 := by
  have turned := int32_add_turns (value - 2 ^ 32) 1
  have same : value - 2 ^ 32 + 2 ^ 32 * 1 = value := by omega
  rw [same] at turned
  rw [turned]
  exact int32_eq (by omega) (by omega)

/-- A computation done in `int` whose exact result is `value`: overflow is undefined. -/
def checkedInt (value : Int) : Result Int :=
  if -2 ^ 31 ≤ value ∧ value < 2 ^ 31 then .ok value else .error (.undefined .signedOverflow)

theorem checked_int_ok {value : Int} (lower : -2 ^ 31 ≤ value) (upper : value < 2 ^ 31) :
    checkedInt value = .ok value := if_pos ⟨lower, upper⟩

theorem checked_int_overflow {value : Int} (big : 2 ^ 31 ≤ value) :
    checkedInt value = .error (.undefined .signedOverflow) := by
  apply if_neg
  omega

/-- A computation done in `long` whose exact result is `value`: overflow is undefined. -/
def checkedLong (value : Int) : Result Int :=
  if -2 ^ 63 ≤ value ∧ value < 2 ^ 63 then .ok value else .error (.undefined .signedOverflow)

/-- `std::string::resize` with an `int` argument. A negative `int` becomes a `size_t`
above `max_size()` and is refused; growing fills with `NUL`. -/
def resize (text : Str) (length : Int) : Result Str :=
  if length < 0 then .error (.thrown .lengthError)
  else .ok (text.take length.toNat ++ List.replicate (length.toNat - text.length) 0)

theorem resize_grown (text : Str) (more : Nat) :
    resize text ((text.length + more : Nat) : Int) = .ok (text ++ List.replicate more 0) := by
  rw [resize, if_neg (by omega), Int.toNat_natCast, List.take_of_length_le (by omega),
    Nat.add_sub_cancel_left]

theorem resize_empty (length : Nat) :
    resize [] (length : Int) = .ok (List.replicate length 0) := by
  rw [resize, if_neg (by omega), List.take_nil, List.nil_append, Int.toNat_natCast]
  rfl

theorem bind_ok {Value Next : Type} (value : Value) (next : Value → Result Next) :
    (Except.ok value >>= next) = next value := rfl

theorem bind_error {Value Next : Type} (fault : Fault) (next : Value → Result Next) :
    ((Except.error fault : Result Value) >>= next) = .error fault := rfl

theorem fatal_bind {Value Next : Type} {first : Result Value} {next : Value → Result Next}
    (fatal : Fatal first) : Fatal (first >>= next) := by
  obtain ⟨fault, failed, uncaught⟩ := fatal
  exact ⟨fault, by rw [failed, bind_error], uncaught⟩

theorem fatal_not_ok {Value : Type} {outcome : Result Value} (fatal : Fatal outcome)
    (value : Value) : outcome ≠ .ok value := by
  obtain ⟨fault, failed, _⟩ := fatal
  rw [failed]
  intro returned
  cases returned

/-- The steps of a sequence that returned, taken apart. -/
theorem bind_eq_ok {Value Next : Type} {first : Result Value} {next : Value → Result Next}
    {result : Next} (done : (first >>= next) = .ok result) :
    ∃ value, first = .ok value ∧ next value = .ok result := by
  cases first with
  | error fault => cases done
  | ok value => exact ⟨value, rfl, done⟩

theorem map_eq_ok {Value Next : Type} {first : Result Value} {next : Value → Next}
    {result : Next} (done : next <$> first = .ok result) :
    ∃ value, first = .ok value ∧ next value = result := by
  cases first with
  | error fault => cases done
  | ok value => exact ⟨value, rfl, Except.ok.inj done⟩

end ChatServer
