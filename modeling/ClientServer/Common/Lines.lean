import ClientServer.Common.Utility

/-!
# Reading lines through a buffer

`Lines` reads a source into an array and hands out views of the lines in it.
When the array is used up in the middle of a line, what is left of it is moved
to the front and the rest of the array is filled again.  The array is never
cleared: behind the part in use it holds what was there before.

`StringLines` and `FileLines` differ in where the bytes come from.  A file is
given by its bytes; it does not change while it is read.
-/

namespace ClientServer

structure Lines where
  _delimiter : UInt8
  _keepDelimiter : Bool
  _processed : Nat
  _sizeInUse : Nat
  _inputSize : Nat
  /-- The array; its length is `ARRAY_SIZE`. -/
  _buffer : Bytes
  _index : Int
  _last : Bool
  _source : Bytes
  _inputPosition : Nat
deriving DecidableEq, Repr

namespace Lines

/-- `refillBuffer`: the array is written from `_sizeInUse` on. -/
def refillBuffer (s : Lines) : Lines :=
  let bytesToRead := min (s._inputSize - s._inputPosition) (s._buffer.length - s._sizeInUse)
  { s with
    _buffer := s._buffer.take s._sizeInUse ++ (s._source.drop s._inputPosition).take bytesToRead ++
      s._buffer.drop (s._sizeInUse + bytesToRead)
    _inputPosition := s._inputPosition + bytesToRead
    _sizeInUse := s._sizeInUse + bytesToRead }

/-- `removeProcessedLines`. -/
def removeProcessedLines (s : Lines) : Call Lines :=
  if s._processed = 0 ∨ s._processed ≥ s._sizeInUse then
    .error (.runtimeError ": The buffer is too small.")
  else
    .ok { s with
      _buffer := (s._buffer.take s._sizeInUse).drop s._processed ++
        s._buffer.drop (s._sizeInUse - s._processed)
      _sizeInUse := s._sizeInUse - s._processed
      _processed := 0 }

/-- `std::find` of the delimiter in the part in use that is not processed.  The
range must not end before it begins. -/
def find (s : Lines) : Call Nat :=
  if s._sizeInUse < s._processed then .error .outOfBounds
  else .ok (s._processed + ((s._buffer.take s._sizeInUse).drop s._processed).idxOf s._delimiter)

/-- The line from `_processed` to `itEnd`. -/
def takeLine (s : Lines) (itEnd : Nat) : Bool × Bytes × Lines :=
  let endsWithDelimiter : Bool :=
    itEnd ≠ s._buffer.length && s._buffer[itEnd]? == some s._delimiter
  let dist := itEnd - s._processed
  if dist = 0 then (false, [], s)
  else
    let view := (s._buffer.drop s._processed).take
      (dist + if endsWithDelimiter && s._keepDelimiter then 1 else 0)
    let _processed := s._processed + (dist + if endsWithDelimiter then 1 else 0)
    (true, view, { s with
      _index := s._index + 1
      _processed := _processed
      _last := decide (_processed = s._sizeInUse ∧ s._inputPosition = s._inputSize) })

def getLineImpl (s : Lines) : Call (Bool × Bytes × Lines) := do
  let itEnd ← s.find
  if itEnd = s._buffer.length ∧ s._inputPosition < s._inputSize then
    let s ← s.removeProcessedLines
    let s := s.refillBuffer
    let itEnd ← s.find
    return s.takeLine itEnd
  else
    return s.takeLine itEnd

end Lines

/-- A reader of a source, with what its array holds when it is constructed. -/
def StringLines.new (_buffer _source : Bytes) (delimiter : UInt8) (keepDelimiter : Bool) : Lines :=
  Lines.refillBuffer {
    _delimiter := delimiter
    _keepDelimiter := keepDelimiter
    _processed := 0
    _sizeInUse := 0
    _inputSize := _source.length
    _buffer := _buffer
    _index := -1
    _last := false
    _source := _source
    _inputPosition := 0 }

/-- The constructor throws `std::filesystem::filesystem_error` for a file that is
not there. -/
def FileLines.new (_buffer : Bytes) (file : Option Bytes) (delimiter : UInt8)
    (keepDelimiter : Bool) : Call Lines :=
  match file with
  | none => .error .systemError
  | some contents => .ok (StringLines.new _buffer contents delimiter keepDelimiter)

end ClientServer
