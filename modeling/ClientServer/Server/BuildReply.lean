import ClientServer.Server.Receiving

/-!
# The reply of a session

The response of the task is put together, compressed and encrypted behind a header,
and a header with the size of that goes in front of it.
-/

namespace ClientServer

open cryptooperations

/-- The options of a server that its sessions read. -/
structure SessionOptions extends DecryptionOptions where
  _compressor : COMPRESSORS
  _doEncrypt : Bool
  _compressionLevel : Int

/-- What does not change while a session runs. -/
structure SessionSetup where
  options : SessionOptions
  lib : Libraries
  terminal : End

/-- The header `buildReply` puts in front of data of a size. -/
def Session.replyHeader (options : SessionOptions) (size : Nat) (status : STATUS) : HEADER where
  headerType := .SESSION
  field1Size := size
  field2Size := 0
  compressor := options._compressor
  diagnostics := .NONE
  status := status
  field3Size := 0
  field4Size := 0

/-- The string `encrypted` of `buildReply`. -/
def Session.encrypted (setup : SessionSetup) (drawn : Drawn) (work : SenderBuffers)
    (header : HEADER) (_responseData : Bytes) : Call Bytes :=
  let options := setup.options
  if options._doubleEncryption then
    compressDoubleEncrypt setup.lib setup.terminal.party drawn work header _responseData
      options._doEncrypt options._compressionLevel
  else
    compressSingleEncrypt setup.lib setup.terminal.party options._singleEncryptor drawn work
      header _responseData options._doEncrypt options._compressionLevel

/-- `Session::buildReply`, from the response put together on. -/
def Session.buildReply (setup : SessionSetup) (drawn : Drawn) (work : SenderBuffers)
    (_responseData : Bytes) (status : STATUS) : Call (HEADER × Bytes) := do
  let header := replyHeader setup.options _responseData.length status
  let dataView ← encrypted setup drawn work header _responseData
  return (replyHeader setup.options dataView.length status, dataView)

/-- What goes down to the client. -/
def Session.message (reply : HEADER × Bytes) : Bytes := serialize reply.1 ++ reply.2

/-- The statuses a session is pushed to the pool with. -/
def Session.Calculated (_status : STATUS) : Prop :=
  _status = .NONE ∨ _status = .MAX_OBJECTS_OF_TYPE ∨ _status = .MAX_TOTAL_OBJECTS

/-- The `switch` in front of the first request. -/
def Session.resetStatus : STATUS → STATUS
  | .MAX_OBJECTS_OF_TYPE | .MAX_TOTAL_OBJECTS => .NONE
  | status => status

theorem Session.Calculated.reset {_status : STATUS} (h : Calculated _status) :
    resetStatus _status = .NONE := by
  rcases h with rfl | rfl | rfl
  all_goals rfl

/- A session that neither compresses nor encrypts. -/
namespace OneReply

open ShortRequest

def session : SessionSetup where
  options :=
    { _doubleEncryption := false
      _singleEncryptor := .CRYPTOSODIUM
      _compressor := .NONE
      _doEncrypt := false
      _compressionLevel := 3 }
  lib := libraries
  terminal := server

def text : Bytes := bytes "[0][7]kippa\n"
def reply : Bytes := bytes "[7]kippa\n"

/-- The engine knows one request. -/
def oneReply (_ : HEADER) (request response : Bytes) : Prop := request = text ∧ response = reply

def payloadHeader (size : Nat) : HEADER :=
  { headerType := .SESSION, field1Size := size, field2Size := 0, compressor := .NONE,
    diagnostics := .NONE, status := .NONE, field3Size := 0, field4Size := 0 }

/-- What the client sends. -/
def payload : Bytes := serialize (payloadHeader 0) ++ text

end OneReply

end ClientServer
