import ClientServer.Library.Outcome

/-!
# Faults

The ways a C++ call of this repository ends without returning.  Most are
exceptions derived from `std::exception`, which a handler may catch.  The rest
end the process or have no defined meaning, and no handler sees them.

Byte strings (`std::string`, `std::string_view`) are lists of bytes.
-/

namespace ClientServer

/-- The contents of a `std::string` or the bytes a `std::string_view` covers. -/
abbrev Bytes := List UInt8

/-- The bytes of a string literal of the source, all of them ASCII. -/
def bytes (s : String) : Bytes := s.toList.map fun c => c.toNat.toUInt8

/-- The error codes of number conversion. -/
inductive Errc where
  | invalid_argument
  | result_out_of_range
deriving DecidableEq, Repr

inductive Fault where
  /-- `std::runtime_error` with a text of the source. -/
  | runtimeError (what : String)
  /-- `std::runtime_error(createErrorString(ec))`: the text of the code and the place. -/
  | errorString (ec : Errc)
  /-- `std::runtime_error(createErrorString())`: the text of `errno` and the place. -/
  | errnoString
  /-- `std::out_of_range`, from a position past the end of a view. -/
  | outOfRange
  /-- `std::length_error`, from a size that no string can have. -/
  | lengthError
  /-- `boost::system::system_error`, a `std::runtime_error`. -/
  | systemError
  /-- `std::logic_error`, from a `std::string` of a null pointer. -/
  | logicError
  /-- An exception of a cryptography library, derived from `std::exception`. -/
  | library (what : String)
  /-- `std::future_error` of a promise that already holds its value. -/
  | promiseAlreadySatisfied
  /-- A failing `assert`: the process aborts. -/
  | assertion (condition : String)
  /-- An access outside an object. -/
  | outOfBounds
  /-- An exception left a `noexcept` function: `std::terminate`. -/
  | terminate
deriving DecidableEq, Repr

/-- The faults a handler `catch (const std::exception&)` sees. -/
def Fault.isException : Fault → Bool
  | .runtimeError _ | .errorString _ | .errnoString | .outOfRange | .lengthError | .systemError
  | .logicError | .library _ | .promiseAlreadySatisfied => true
  | .assertion _ | .outOfBounds | .terminate => false

/-- The faults a handler `catch (const std::runtime_error&)` sees. -/
def Fault.isRuntimeError : Fault → Bool
  | .runtimeError _ | .errorString _ | .errnoString | .systemError => true
  | _ => false

/-- A call of this repository. -/
abbrev Call := Except Fault

/-- The boundary of a `noexcept` function. -/
def noexcept {α : Type _} (call : Call α) : Call α :=
  match call with
  | .ok a => .ok a
  | .error fault => .error (if fault.isException then .terminate else fault)

/-- `buffer[i]` through `std::string::data()`: the terminating zero byte can be
read, nothing after it can. -/
def charAt (buffer : Bytes) (i : Nat) : Call UInt8 :=
  match buffer[i]? with
  | some c => .ok c
  | none => if i = buffer.length then .ok 0 else .error .outOfBounds

theorem charAt_of_lt {buffer : Bytes} {i : Nat} (h : i < buffer.length) :
    charAt buffer i = .ok buffer[i] := by
  simp [charAt, h]

theorem charAt_length (buffer : Bytes) : charAt buffer buffer.length = .ok 0 := by
  simp [charAt]

theorem charAt_of_gt {buffer : Bytes} {i : Nat} (h : buffer.length < i) :
    charAt buffer i = .error .outOfBounds := by
  simp [charAt, List.getElem?_eq_none (Nat.le_of_lt h), Nat.ne_of_gt h]

end ClientServer
