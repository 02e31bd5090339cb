import ClientServer.Common.Transport
import ClientServer.Crypto.Operations
import ClientServer.Crypto.SessionKeys

/-!
# The acceptors

A server accepts clients over TCP and over a named pipe.  Each acceptor reads
one message and builds a session if the message is an `AUTHENTICATE`.  The TCP
acceptor arms the next `async_accept` as the last statement of the handler, the
FIFO acceptor is a loop inside a `try` block: an exception that leaves the
handler or the body of the loop ends the acceptor, and a fault that is no
exception ends the process with both of them.

`acceptors_survive_iff` says which peers they survive.
-/

namespace ClientServer

/-! ## Sessions -/

/-- `Options::_primaryEncryptor`. -/
def _primaryEncryptor : CRYPTO := .CRYPTOSODIUM

/-- What is drawn while a session is built, the number of `getUniqueId` included. -/
structure SessionDrawn extends KeysDrawn where
  clientId : Nat

/-- The members of a session that its constructor fills. -/
structure Session where
  _clientId : Nat
  _primarySodiumEncryptor : CryptoSodium
  _secondaryCryptoppEncryptor : CryptoPlPl
  _primaryPubKeyAes : Bytes
  _secondaryPubKeyAes : Bytes
deriving DecidableEq

section Session

variable (lib : KeyLibraries) (drawn : SessionDrawn)

/-- The switch over the primary encryptor and the check behind it. -/
def Session.primary (encryptor : CRYPTO) (primarySignatureWithKey primaryPubKeyAes : Bytes) :
    Call (CryptoSodium × Bytes) := do
  let _primarySodiumEncryptor ← match encryptor with
    | .CRYPTOSODIUM =>
        some <$> CryptoSodium.session lib drawn.toKeysDrawn primaryPubKeyAes primarySignatureWithKey
    | .CRYPTOPP =>
        (fun _ => none) <$>
          CryptoPlPl.session lib drawn.toKeysDrawn primaryPubKeyAes primarySignatureWithKey
    | .NONE | .ERROR => .ok none
  match _primarySodiumEncryptor with
  | some encryptor => return encryptor
  | none => CryptoSodium.session lib drawn.toKeysDrawn primaryPubKeyAes primarySignatureWithKey

/-- `Session::Session`; the handler of its function try block throws again. -/
def Session.new (primarySignatureWithKey primaryPubKeyAes secondarySignatureWithKey
    secondaryPubKeyAes : Bytes) : Call Session := do
  let primary ←
    Session.primary lib drawn _primaryEncryptor primarySignatureWithKey primaryPubKeyAes
  let secondary ←
    CryptoPlPl.session lib drawn.toKeysDrawn secondaryPubKeyAes secondarySignatureWithKey
  return {
    _clientId := drawn.clientId
    _primarySodiumEncryptor := primary.1
    _secondaryCryptoppEncryptor := secondary.1
    _primaryPubKeyAes := primary.2
    _secondaryPubKeyAes := secondary.2 }

/-- The message of `Session::sendStatusToClient`. -/
def Session.sendStatusToClient (session : Session) (status : STATUS) : Bytes :=
  let clientIdStr := toCharsBoost session._clientId false
  let _keyExchangeHeader : HEADER :=
    { headerType := .DH_HANDSHAKE
      field1Size := clientIdStr.length
      field2Size := session._primaryPubKeyAes.length
      compressor := .NONE
      diagnostics := .NONE
      status
      field3Size := session._secondaryPubKeyAes.length
      field4Size := 0 }
  sendMessage _keyExchangeHeader clientIdStr session._primaryPubKeyAes session._secondaryPubKeyAes []

/-- The four strings of a message, in the order of the output array. -/
def Session.ofFields (array : List Bytes) : Call Session :=
  Session.new lib drawn (array.getD 0 []) (array.getD 1 []) (array.getD 2 []) (array.getD 3 [])

/-- Both encryptors accept their strings. -/
structure SessionAccepted (array : List Bytes) : Prop where
  primaryPubKeyAes : CryptoSodium.ExchangesWith lib drawn.toKeysDrawn (array.getD 1 [])
  primarySignature : CryptoSodium.Verifies lib (array.getD 0 [])
  secondaryPubKeyAes : CryptoPlPl.ExchangesWith lib drawn.toKeysDrawn (array.getD 3 [])
  secondarySignature : CryptoPlPl.Verifies lib (array.getD 2 [])

variable {lib drawn}

theorem Session.primary_eq (primarySignatureWithKey primaryPubKeyAes : Bytes) :
    Session.primary lib drawn _primaryEncryptor primarySignatureWithKey primaryPubKeyAes =
      CryptoSodium.session lib drawn.toKeysDrawn primaryPubKeyAes primarySignatureWithKey := by
  simp only [Session.primary, _primaryEncryptor]
  cases CryptoSodium.session lib drawn.toKeysDrawn primaryPubKeyAes primarySignatureWithKey <;> rfl

theorem Session.ofFields_ok_iff {array : List Bytes} :
    (∃ session, Session.ofFields lib drawn array = .ok session) ↔
      SessionAccepted lib drawn array := by
  simp only [Session.ofFields, Session.new, Session.primary_eq, Outcome.bind_eq_ok,
    Outcome.pure_eq_ok]
  constructor
  · rintro ⟨_, sodium, hsodium, plpl, hplpl, -⟩
    obtain ⟨hexchanges, hverifies⟩ := CryptoSodium.session_ok_iff.mp ⟨sodium, hsodium⟩
    obtain ⟨hexchanges', hverifies'⟩ := CryptoPlPl.session_ok_iff.mp ⟨plpl, hplpl⟩
    exact ⟨hexchanges, hverifies, hexchanges', hverifies'⟩
  · intro h
    obtain ⟨sodium, hsodium⟩ :=
      CryptoSodium.session_ok_iff.mpr ⟨h.primaryPubKeyAes, h.primarySignature⟩
    obtain ⟨plpl, hplpl⟩ :=
      CryptoPlPl.session_ok_iff.mpr ⟨h.secondaryPubKeyAes, h.secondarySignature⟩
    exact ⟨_, sodium, hsodium, plpl, hplpl, rfl⟩

end Session

/-! ## What an acceptor does with one peer -/

/-- The output strings of an acceptor before it reads. -/
def emptyFields : List Bytes := [[], [], [], []]

/-- What a peer was given. -/
inductive Served where
  | session (session : Session) (reply : Bytes)
  | heartbeat (reply : Bytes)
  | nothing

/-- A message an acceptor takes apart. -/
structure Received (payload : Bytes) : Prop where
  long : HEADER_SIZE ≤ payload.length
  accepted : HeaderAccepted payload
  fields : FieldsIn payload 4

theorem processMessage_received {payload : Bytes} {header filled : HEADER} {fields : List Bytes} :
    processMessage payload header emptyFields = .ok (true, filled, fields) ↔
      Received payload ∧ filled = headerAt payload ∧ fields = fieldsAt payload emptyFields := by
  have hlength : emptyFields.length ≤ 4 := Nat.le_refl 4
  rw [processMessage_true_iff hlength]
  constructor
  · rintro ⟨hlong, haccepted, hfields, hfilled, hslices⟩
    exact ⟨⟨hlong, haccepted, hfields⟩, hfilled, hslices⟩
  · rintro ⟨⟨hlong, haccepted, hfields⟩, hfilled, hslices⟩
    exact ⟨hlong, haccepted, hfields, hfilled, hslices⟩

/-- An incoming connection: the chunks its socket brings, whether the option can
be set and the endpoints can be asked for, and what is drawn for its session. -/
structure Connection where
  chunks : List Bytes
  optionSet : Bool
  endpoints : Bool
  drawn : SessionDrawn

/-- A message on the acceptor pipe: whether the pipe opens, what the reads
return, whether writing the reply throws, and what is drawn for its session. -/
structure PipeMessage where
  opened : Bool
  results : List ReadResult
  replyThrows : Bool
  drawn : SessionDrawn

section Handlers

variable (lib : KeyLibraries)

/-- `TcpSession::start`, up to the first read it posts. -/
def TcpSession.start (connection : Connection) : Call Bool :=
  if connection.optionSet then do
    Outcome.require connection.endpoints .systemError
    return true
  else .ok false

/-- `Server::createTcpSession`; neither the reply nor the pool throws. -/
def createTcpSession (connection : Connection) (array : List Bytes) : Call Session := do
  let session ← Session.ofFields lib connection.drawn array
  let _ ← TcpSession.start connection
  return session

/-- `Server::createFifoSession`; the constructor sends the reply. -/
def createFifoSession (message : PipeMessage) (array : List Bytes) : Call Session := do
  let session ← Session.ofFields lib message.drawn array
  Outcome.require (!message.replyThrows) .errnoString
  return session

namespace TcpAcceptor

def connectionType (_header : HEADER) (connection : Connection) :
    Call (HEADER × List Bytes) := do
  let (ok, _header, array) ← Tcp.readMessage connection.chunks _header emptyFields
  Outcome.require ok .errnoString
  Outcome.require (!isCompressed _header) (.assertion "!isCompressed(_header)")
  return (_header, array)

/-- The handler of `accept`, without an error, up to the next `accept`. -/
def accept (_header : HEADER) (connection : Connection) : Call (HEADER × Served) := do
  let (_header, array) ← connectionType _header connection
  match _header.headerType with
  | .AUTHENTICATE => do
      let session ← createTcpSession lib connection array
      return (_header, .session session (session.sendStatusToClient .NONE))
  | .HEARTBEAT => return (_header, .heartbeat (sendMessage _header [] [] [] []))
  | _ => return (_header, .nothing)

end TcpAcceptor

namespace FifoAcceptor

def unblockAcceptor (_header : HEADER) (message : PipeMessage) :
    Call (HEADERTYPE × HEADER × List Bytes) := do
  let (ok, _header, array) ←
    Fifo.readMessage message.opened message.results _header emptyFields
  if ok then
    return (_header.headerType, _header, array)
  else
    return (.ERROR, _header, emptyFields)

/-- The body of the loop of `run`. -/
def iteration (_header : HEADER) (message : PipeMessage) : Call (HEADER × Served) := do
  let (type, _header, array) ← unblockAcceptor _header message
  match type with
  | .AUTHENTICATE => do
      let session ← createFifoSession lib message array
      return (_header, .session session (session.sendStatusToClient .NONE))
  | _ => return (_header, .nothing)

end FifoAcceptor

/-! ## Peers an acceptor can deal with -/

/-- What a message with a header of type `AUTHENTICATE` has to carry. -/
def AuthenticationHolds (drawn : SessionDrawn) (payload : Bytes) : Prop :=
  SessionAccepted lib drawn (fieldsAt payload emptyFields)

/-- A connection that brings one well formed message, not compressed, and if it
wants a session keys that are accepted and a socket that is still connected. -/
def Connection.Tame (connection : Connection) : Prop :=
  ∃ payload, Framed (ENDOFMESSAGE <:+: ·) connection.chunks payload ∧ Received payload ∧
    isCompressed (headerAt payload) = false ∧
    ((headerAt payload).headerType = .AUTHENTICATE →
      AuthenticationHolds lib connection.drawn payload ∧
        (connection.optionSet = true → connection.endpoints = true))

/-- A message of a pipe that is passed over because it has no header, or one
that has its fields where the header says, and if it wants a session keys that
are accepted and a pipe that takes the reply. -/
def PipeMessage.PayloadTame (message : PipeMessage) (payload : Bytes) : Prop :=
  HEADER_SIZE ≤ payload.length →
    ¬ HeaderMalformed payload ∧
    (HeaderAccepted payload → FieldsIn payload 4 ∧
      ((headerAt payload).headerType = .AUTHENTICATE →
        AuthenticationHolds lib message.drawn payload ∧ message.replyThrows = false))

/-- A pipe that does not open, or does not fail before a message is there, with
a message that is tame if it is a whole one. -/
def PipeMessage.Tame (message : PipeMessage) : Prop :=
  message.opened = true →
    ¬ Fifo.Broken message.results ∧
    ∀ payload, Framed (ENDOFMESSAGE <:+ ·) (Fifo.received message.results) payload →
      message.PayloadTame lib payload

variable {lib}

theorem TcpAcceptor.connectionType_eq_ok {_header filled : HEADER} {connection : Connection}
    {array : List Bytes} :
    connectionType _header connection = .ok (filled, array) ↔
      ∃ payload, Framed (ENDOFMESSAGE <:+: ·) connection.chunks payload ∧ Received payload ∧
        isCompressed (headerAt payload) = false ∧ filled = headerAt payload ∧
        array = fieldsAt payload emptyFields := by
  constructor
  · intro h
    obtain ⟨⟨ok, read, fields⟩, hread, h⟩ := Outcome.bind_eq_ok.mp h
    obtain ⟨_, hok, h⟩ := Outcome.bind_eq_ok.mp h
    obtain ⟨_, hplain, h⟩ := Outcome.bind_eq_ok.mp h
    cases h
    obtain rfl := Outcome.require_eq_ok.mp hok
    have hplain := Outcome.require_eq_ok.mp hplain
    unfold Tcp.readMessage at hread
    cases hstring : Tcp.readString connection.chunks with
    | none =>
        rw [hstring] at hread
        cases hread
    | some payload =>
        rw [hstring] at hread
        obtain ⟨hreceived, rfl, rfl⟩ := processMessage_received.mp hread
        exact ⟨payload, Tcp.readString_eq_some_iff.mp hstring, hreceived, by simpa using hplain,
          rfl, rfl⟩
  · rintro ⟨payload, hframed, hreceived, hplain, rfl, rfl⟩
    have hread : Tcp.readMessage connection.chunks _header emptyFields =
        .ok (true, headerAt payload, fieldsAt payload emptyFields) := by
      rw [Tcp.readMessage, Tcp.readString_eq_some_iff.mpr hframed]
      exact processMessage_received.mpr ⟨hreceived, rfl, rfl⟩
    simp [connectionType, hread, Outcome.require, hplain]

theorem createTcpSession_ok_iff {connection : Connection} {array : List Bytes} :
    (∃ session, createTcpSession lib connection array = .ok session) ↔
      SessionAccepted lib connection.drawn array ∧
        (connection.optionSet = true → connection.endpoints = true) := by
  rw [← Session.ofFields_ok_iff]
  unfold createTcpSession TcpSession.start
  cases Session.ofFields lib connection.drawn array with
  | error fault => simp
  | ok session => cases connection.optionSet <;> cases connection.endpoints <;> simp [Outcome.require]

theorem createFifoSession_ok_iff {message : PipeMessage} {array : List Bytes} :
    (∃ session, createFifoSession lib message array = .ok session) ↔
      SessionAccepted lib message.drawn array ∧ message.replyThrows = false := by
  rw [← Session.ofFields_ok_iff]
  unfold createFifoSession
  cases Session.ofFields lib message.drawn array with
  | error fault => simp
  | ok session => cases message.replyThrows <;> simp [Outcome.require]

/-- The handler comes to its last statement exactly for tame connections. -/
theorem TcpAcceptor.accept_ok_iff {_header : HEADER} {connection : Connection} :
    (∃ result, accept lib _header connection = .ok result) ↔ connection.Tame lib := by
  constructor
  · rintro ⟨result, h⟩
    obtain ⟨⟨filled, array⟩, hread, h⟩ := Outcome.bind_eq_ok.mp h
    obtain ⟨payload, hframed, hreceived, hplain, rfl, rfl⟩ := connectionType_eq_ok.mp hread
    refine ⟨payload, hframed, hreceived, hplain, fun htype => ?_⟩
    simp only [htype] at h
    obtain ⟨session, hsession, -⟩ := Outcome.bind_eq_ok.mp h
    exact createTcpSession_ok_iff.mp ⟨session, hsession⟩
  · rintro ⟨payload, hframed, hreceived, hplain, hauthenticate⟩
    have hread : connectionType _header connection =
        .ok (headerAt payload, fieldsAt payload emptyFields) :=
      connectionType_eq_ok.mpr ⟨payload, hframed, hreceived, hplain, rfl, rfl⟩
    rw [accept, hread, Outcome.ok_bind]
    dsimp only
    split
    · next htype =>
        obtain ⟨session, hsession⟩ := createTcpSession_ok_iff.mpr (hauthenticate htype)
        rw [hsession]
        exact ⟨_, rfl⟩
    · exact ⟨_, rfl⟩
    · exact ⟨_, rfl⟩

/-- Where it does not throw, the header is in order, and a header that is accepted
has its fields behind it. -/
theorem inOrder_of_processMessage {payload : Bytes} {_header : HEADER}
    {result : Bool × HEADER × List Bytes}
    (h : processMessage payload _header emptyFields = .ok result)
    (hlong : HEADER_SIZE ≤ payload.length) :
    ¬ HeaderMalformed payload ∧ (HeaderAccepted payload → FieldsIn payload 4) := by
  have hthrows := @processMessage_throws_iff payload _header emptyFields (Nat.le_refl 4)
  have hnot : ¬ ∃ fault, processMessage payload _header emptyFields = .error fault := by
    rintro ⟨fault, hfault⟩
    cases h.symm.trans hfault
  rw [hthrows, not_and, not_or, not_and, not_not] at hnot
  exact hnot hlong

/-- A header with its fields would have been accepted. -/
theorem not_accepted_of_processMessage {payload : Bytes} {_header filled : HEADER}
    {array : List Bytes}
    (h : processMessage payload _header emptyFields = .ok (false, filled, array))
    (hlong : HEADER_SIZE ≤ payload.length) : ¬ HeaderAccepted payload := by
  intro haccepted
  have hfields := (inOrder_of_processMessage h hlong).2 haccepted
  have htrue : processMessage payload _header emptyFields = _ :=
    processMessage_received.mpr ⟨⟨hlong, haccepted, hfields⟩, rfl, rfl⟩
  cases h.symm.trans htrue

/-- What one turn of the loop does with a message that was read. -/
theorem FifoAcceptor.iteration_of_payload {_header : HEADER} {message : PipeMessage}
    {payload : Bytes} (hopened : message.opened = true)
    (hread : Fifo.readLoop [] message.results = .ok (true, payload)) :
    (∃ result, iteration lib _header message = .ok result) ↔ message.PayloadTame lib payload := by
  have hmessage : Fifo.readMessage message.opened message.results _header emptyFields =
      processMessage payload _header emptyFields := by
    simp [Fifo.readMessage, Fifo.readStringBlock, hopened, hread]
  have hthrows : (∃ fault, processMessage payload _header emptyFields = .error fault) ↔
      HEADER_SIZE ≤ payload.length ∧
        (HeaderMalformed payload ∨ HeaderAccepted payload ∧ ¬ FieldsIn payload 4) :=
    processMessage_throws_iff (Nat.le_refl 4)
  unfold iteration unblockAcceptor PipeMessage.PayloadTame
  rw [hmessage]
  cases hprocess : processMessage payload _header emptyFields with
  | error fault =>
      obtain ⟨hlong, hbad⟩ := hthrows.mp ⟨fault, hprocess⟩
      constructor
      · rintro ⟨result, h⟩
        cases h
      · intro htame
        obtain ⟨hwell, hfields⟩ := htame hlong
        rcases hbad with hmalformed | ⟨haccepted, hnot⟩
        · exact absurd hmalformed hwell
        · exact absurd (hfields haccepted).1 hnot
  | ok result =>
      obtain ⟨ok, filled, array⟩ := result
      have hgood := inOrder_of_processMessage hprocess
      cases ok with
      | false =>
          have hrefused := not_accepted_of_processMessage hprocess
          constructor
          · intro _ hlong
            exact ⟨(hgood hlong).1, fun haccepted => absurd haccepted (hrefused hlong)⟩
          · intro _
            exact ⟨_, rfl⟩
      | true =>
          obtain ⟨hreceived, rfl, rfl⟩ := processMessage_received.mp hprocess
          have hsession : (∃ session, createFifoSession lib message (fieldsAt payload emptyFields) =
              .ok session) ↔ _ := createFifoSession_ok_iff
          constructor
          · rintro ⟨result, h⟩ hlong
            refine ⟨(hgood hlong).1, fun haccepted => ⟨hreceived.fields, fun htype => ?_⟩⟩
            simp only [Outcome.ok_bind, if_true, Outcome.pure_eq_ok, htype] at h
            obtain ⟨session, h, -⟩ := Outcome.bind_eq_ok.mp h
            exact hsession.mp ⟨session, h⟩
          · intro htame
            have hauthenticate := ((htame hreceived.long).2 hreceived.accepted).2
            simp only [Outcome.ok_bind, if_true, Outcome.pure_eq_ok]
            split
            · next htype =>
                obtain ⟨session, h⟩ := hsession.mpr (hauthenticate htype)
                rw [h]
                exact ⟨_, rfl⟩
            · exact ⟨_, rfl⟩

/-- A turn of the loop comes to its end exactly for tame messages. -/
theorem FifoAcceptor.iteration_ok_iff {_header : HEADER} {message : PipeMessage} :
    (∃ result, iteration lib _header message = .ok result) ↔ message.Tame lib := by
  unfold PipeMessage.Tame
  cases hopened : message.opened with
  | false =>
      refine ⟨fun _ h => Bool.noConfusion h, fun _ => ?_⟩
      simp [iteration, unblockAcceptor, Fifo.readMessage, Fifo.readStringBlock, hopened]
  | true =>
      rw [← Fifo.readLoop_throws_iff]
      simp only [← Fifo.readLoop_true_iff, true_implies]
      cases hread : Fifo.readLoop [] message.results with
      | error fault =>
          constructor
          · rintro ⟨result, h⟩
            simp [iteration, unblockAcceptor, Fifo.readMessage, Fifo.readStringBlock, hopened,
              hread] at h
          · rintro ⟨hnot, -⟩
            exact absurd ⟨fault, rfl⟩ hnot
      | ok result =>
          obtain ⟨ok, payload⟩ := result
          cases ok with
          | false =>
              refine ⟨fun _ => ⟨by simp, by simp⟩, fun _ => ?_⟩
              simp [iteration, unblockAcceptor, Fifo.readMessage, Fifo.readStringBlock, hopened,
                hread]
          | true =>
              rw [iteration_of_payload hopened hread]
              constructor
              · intro htame
                refine ⟨by simp, fun payload' h => ?_⟩
                cases h
                exact htame
              · rintro ⟨-, htame⟩
                exact htame payload rfl

end Handlers

/-! ## Both acceptors -/

/-- An acceptor with the header of the last message, or one that has left its
loop: through a fault, or because it was stopped or its accept failed. -/
inductive Acceptor where
  | accepting (_header : HEADER)
  | left (fault : Option Fault)

structure Acceptors where
  _stopped : Bool
  tcp : Acceptor
  fifo : Acceptor
  served : List Served

inductive Incoming where
  | connection (connection : Connection)
  /-- `async_accept` completes with an error. -/
  | acceptError
  | message (message : PipeMessage)
  | stop

namespace Acceptors

variable (lib : KeyLibraries)

def start : Acceptors :=
  { _stopped := false, tcp := .accepting default, fifo := .accepting default, served := [] }

/-- The TCP acceptor at the end of its handler. -/
def afterTcp (s : Acceptors) : Call (HEADER × Served) → Acceptors
  | .ok (_header, served) =>
      { s with tcp := .accepting _header, served := s.served ++ [served] }
  | .error fault =>
      { s with
        tcp := .left (some fault)
        fifo := if fault.isException then s.fifo else .left (some fault) }

/-- The FIFO acceptor at the end of the body of its loop. -/
def afterFifo (s : Acceptors) : Call (HEADER × Served) → Acceptors
  | .ok (_header, served) =>
      { s with fifo := .accepting _header, served := s.served ++ [served] }
  | .error fault =>
      { s with
        fifo := .left (some fault)
        tcp := if fault.isException then s.tcp else .left (some fault) }

/-- The completion handler of `async_accept`. -/
def handleConnection (s : Acceptors) (connection : Connection) : Acceptors :=
  match s.tcp with
  | .left _ => s
  | .accepting _header =>
      if s._stopped then { s with tcp := .left none }
      else s.afterTcp (TcpAcceptor.accept lib _header connection)

/-- The completion handler of an `async_accept` that failed. -/
def handleError (s : Acceptors) : Acceptors :=
  match s.tcp with
  | .left _ => s
  | .accepting _ => { s with tcp := .left none }

/-- One turn of the loop of the FIFO acceptor. -/
def handleMessage (s : Acceptors) (message : PipeMessage) : Acceptors :=
  match s.fifo with
  | .left _ => s
  | .accepting _header =>
      if s._stopped then { s with fifo := .left none }
      else s.afterFifo (FifoAcceptor.iteration lib _header message)

def handle (s : Acceptors) : Incoming → Acceptors
  | .connection peer => s.handleConnection lib peer
  | .acceptError => s.handleError
  | .message peer => s.handleMessage lib peer
  | .stop => { s with _stopped := true }

def run (events : List Incoming) : Acceptors := events.foldl (handle lib) start

end Acceptors

/-- The TCP acceptor has a pending `async_accept`, the FIFO acceptor is inside
its loop. -/
def Acceptor.Accepting : Acceptor → Prop
  | .accepting _ => True
  | .left _ => False

structure Acceptors.Serving (s : Acceptors) : Prop where
  tcp : s.tcp.Accepting
  fifo : s.fifo.Accepting

section Runs

variable (lib : KeyLibraries)

def Incoming.Tame : Incoming → Prop
  | .connection peer => peer.Tame lib
  | .acceptError => False
  | .message peer => peer.Tame lib
  | .stop => True

/-- A client that asks for a session and is entitled to it. -/
def Incoming.Authenticates : Incoming → Prop
  | .connection peer =>
      peer.Tame lib ∧ ∃ payload, Framed (ENDOFMESSAGE <:+: ·) peer.chunks payload ∧
        (headerAt payload).headerType = .AUTHENTICATE
  | .message peer =>
      peer.Tame lib ∧ peer.opened = true ∧
        ∃ payload, Framed (ENDOFMESSAGE <:+ ·) (Fifo.received peer.results) payload ∧
          Received payload ∧ (headerAt payload).headerType = .AUTHENTICATE
  | .acceptError | .stop => False

/-- The client got a session and the message with the public keys of the server. -/
def Acceptors.Serves (s : Acceptors) (client : Incoming) : Prop :=
  ∃ session, (s.handle lib client).served =
    s.served ++ [Served.session session (session.sendStatusToClient .NONE)]

/-- After every peer that was handled, as long as the server is not stopped, both
acceptors are there for the next one and a client that comes gets its session. -/
def Acceptors.Survive (events : List Incoming) : Prop :=
  ∀ before, before <+: events → (Acceptors.run lib before)._stopped = false →
    (Acceptors.run lib before).Serving ∧
    ∀ client : Incoming, client.Authenticates lib → (Acceptors.run lib before).Serves lib client

variable {lib}

@[simp] theorem Acceptors.afterTcp_stopped (s : Acceptors) (call : Call (HEADER × Served)) :
    (s.afterTcp call)._stopped = s._stopped := by
  cases call <;> rfl

@[simp] theorem Acceptors.afterFifo_stopped (s : Acceptors) (call : Call (HEADER × Served)) :
    (s.afterFifo call)._stopped = s._stopped := by
  cases call <;> rfl

theorem Acceptors.handle_stopped (s : Acceptors) {event : Incoming} (h : event ≠ .stop) :
    (s.handle lib event)._stopped = s._stopped := by
  cases event with
  | connection peer =>
      show (s.handleConnection lib peer)._stopped = s._stopped
      unfold handleConnection
      split
      · rfl
      · split <;> simp
  | acceptError =>
      show s.handleError._stopped = s._stopped
      unfold handleError
      split <;> rfl
  | message peer =>
      show (s.handleMessage lib peer)._stopped = s._stopped
      unfold handleMessage
      split
      · rfl
      · split <;> simp
  | stop => exact absurd rfl h

theorem Acceptors.run_append (before : List Incoming) (event : Incoming) :
    run lib (before ++ [event]) = (run lib before).handle lib event := by
  simp [run]

/-- Nothing but `stop` sets the flag. -/
theorem Acceptors.run_stopped_iff (events : List Incoming) :
    (run lib events)._stopped = false ↔ .stop ∉ events := by
  induction events using List.reverseRecOn with
  | nil => simp [run, start]
  | append_singleton before event ih =>
      rw [run_append]
      by_cases hstop : event = .stop
      · subst hstop
        simp [handle]
      · rw [handle_stopped _ hstop, ih]
        simp [Ne.symm hstop]

/-! ### One peer -/

theorem Acceptors.serving_afterTcp {s : Acceptors} {call : Call (HEADER × Served)} :
    (s.afterTcp call).Serving ↔ s.fifo.Accepting ∧ ∃ result, call = .ok result := by
  cases call with
  | ok result =>
      exact ⟨fun h => ⟨h.fifo, result, rfl⟩, fun h => ⟨trivial, h.1⟩⟩
  | error fault =>
      constructor
      · intro h
        exact h.tcp.elim
      · rintro ⟨-, result, h⟩
        cases h

theorem Acceptors.serving_afterFifo {s : Acceptors} {call : Call (HEADER × Served)} :
    (s.afterFifo call).Serving ↔ s.tcp.Accepting ∧ ∃ result, call = .ok result := by
  cases call with
  | ok result =>
      exact ⟨fun h => ⟨h.tcp, result, rfl⟩, fun h => ⟨h.1, trivial⟩⟩
  | error fault =>
      constructor
      · intro h
        exact h.fifo.elim
      · rintro ⟨-, result, h⟩
        cases h

theorem Acceptors.serving_handleConnection {s : Acceptors} (hrunning : s._stopped = false)
    (connection : Connection) :
    (s.handleConnection lib connection).Serving ↔ s.Serving ∧ connection.Tame lib := by
  unfold handleConnection
  split
  · next hleft =>
      have hnot : ¬ s.Serving := fun hs => by simpa [hleft, Acceptor.Accepting] using hs.tcp
      simp [hnot]
  · next _header hheader =>
      simp only [hrunning, Bool.false_eq_true, if_false, serving_afterTcp]
      rw [TcpAcceptor.accept_ok_iff]
      exact ⟨fun ⟨h, htame⟩ => ⟨⟨by rw [hheader]; trivial, h⟩, htame⟩,
        fun ⟨hs, htame⟩ => ⟨hs.fifo, htame⟩⟩

theorem Acceptors.serving_handleMessage {s : Acceptors} (hrunning : s._stopped = false)
    (message : PipeMessage) :
    (s.handleMessage lib message).Serving ↔ s.Serving ∧ message.Tame lib := by
  unfold handleMessage
  split
  · next hleft =>
      have hnot : ¬ s.Serving := fun hs => by simpa [hleft, Acceptor.Accepting] using hs.fifo
      simp [hnot]
  · next _header hheader =>
      simp only [hrunning, Bool.false_eq_true, if_false, serving_afterFifo]
      rw [FifoAcceptor.iteration_ok_iff]
      exact ⟨fun ⟨h, htame⟩ => ⟨⟨h, by rw [hheader]; trivial⟩, htame⟩,
        fun ⟨hs, htame⟩ => ⟨hs.tcp, htame⟩⟩

theorem Acceptors.not_serving_handleError (s : Acceptors) : ¬ s.handleError.Serving := by
  intro hs
  unfold handleError at hs
  split at hs
  · next hleft => simpa [hleft, Acceptor.Accepting] using hs.tcp
  · exact hs.tcp

/-- One peer leaves the acceptors serving if it is tame, and only then. -/
theorem Acceptors.serving_handle {s : Acceptors} (hrunning : s._stopped = false)
    {event : Incoming} (h : event ≠ .stop) :
    (s.handle lib event).Serving ↔ s.Serving ∧ event.Tame lib := by
  cases event with
  | connection peer => exact serving_handleConnection hrunning peer
  | acceptError => exact ⟨fun hs => absurd hs s.not_serving_handleError, fun hs => hs.2.elim⟩
  | message peer => exact serving_handleMessage hrunning peer
  | stop => exact absurd rfl h

/-- A connection that authenticates gets a session. -/
theorem TcpAcceptor.accept_of_authenticates (_header : HEADER) {connection : Connection}
    {payload : Bytes} (htame : connection.Tame lib)
    (hframed : Framed (ENDOFMESSAGE <:+: ·) connection.chunks payload)
    (htype : (headerAt payload).headerType = .AUTHENTICATE) :
    ∃ filled session, accept lib _header connection =
      .ok (filled, .session session (session.sendStatusToClient .NONE)) := by
  obtain ⟨payload', hframed', hreceived, hplain, hauthenticate⟩ := htame
  have hsame : some payload' = some payload := by
    rw [← Tcp.readString_eq_some_iff.mpr hframed', Tcp.readString_eq_some_iff.mpr hframed]
  obtain rfl := Option.some.inj hsame
  have hread : connectionType _header connection =
      .ok (headerAt payload', fieldsAt payload' emptyFields) :=
    connectionType_eq_ok.mpr ⟨payload', hframed, hreceived, hplain, rfl, rfl⟩
  obtain ⟨session, hsession⟩ := createTcpSession_ok_iff.mpr (hauthenticate htype)
  refine ⟨headerAt payload', session, ?_⟩
  simp [accept, hread, htype, hsession]

/-- A pipe message that authenticates gets a session. -/
theorem FifoAcceptor.iteration_of_authenticates (_header : HEADER) {message : PipeMessage}
    {payload : Bytes} (htame : message.Tame lib) (hopened : message.opened = true)
    (hframed : Framed (ENDOFMESSAGE <:+ ·) (Fifo.received message.results) payload)
    (hreceived : Received payload) (htype : (headerAt payload).headerType = .AUTHENTICATE) :
    ∃ filled session, iteration lib _header message =
      .ok (filled, .session session (session.sendStatusToClient .NONE)) := by
  have hpayload := (htame hopened).2 payload hframed
  have hauthenticate := ((hpayload hreceived.long).2 hreceived.accepted).2 htype
  have hread : Fifo.readMessage message.opened message.results _header emptyFields =
      .ok (true, headerAt payload, fieldsAt payload emptyFields) := by
    simp only [Fifo.readMessage, Fifo.readStringBlock, hopened, if_true,
      Fifo.readLoop_true_iff.mpr hframed, Outcome.ok_bind, Bool.not_true, Bool.false_eq_true,
      if_false]
    exact processMessage_received.mpr ⟨hreceived, rfl, rfl⟩
  obtain ⟨session, hsession⟩ := createFifoSession_ok_iff.mpr hauthenticate
  refine ⟨headerAt payload, session, ?_⟩
  simp [iteration, unblockAcceptor, hread, htype, hsession]

theorem Acceptor.Accepting.exists_header {acceptor : Acceptor} (h : acceptor.Accepting) :
    ∃ _header, acceptor = .accepting _header := by
  cases acceptor with
  | accepting _header => exact ⟨_header, rfl⟩
  | left fault => exact h.elim

/-- A client that comes to serving acceptors gets its session. -/
theorem Acceptors.Serving.serves {s : Acceptors} (hs : s.Serving) (hrunning : s._stopped = false)
    {client : Incoming} (h : client.Authenticates lib) : s.Serves lib client := by
  cases client with
  | connection peer =>
      obtain ⟨htame, payload, hframed, htype⟩ := h
      obtain ⟨_header, hheader⟩ := hs.tcp.exists_header
      obtain ⟨filled, session, haccept⟩ := TcpAcceptor.accept_of_authenticates _header htame hframed htype
      exact ⟨session, by simp [handle, handleConnection, hheader, hrunning, haccept, afterTcp]⟩
  | acceptError => exact h.elim
  | message peer =>
      obtain ⟨htame, hopened, payload, hframed, hreceived, htype⟩ := h
      obtain ⟨_header, hheader⟩ := hs.fifo.exists_header
      obtain ⟨filled, session, hiteration⟩ :=
        FifoAcceptor.iteration_of_authenticates _header htame hopened hframed hreceived htype
      exact ⟨session, by simp [handle, handleMessage, hheader, hrunning, hiteration, afterFifo]⟩
  | stop => exact h.elim

/-! ### Every sequence of peers -/

theorem Acceptors.serving_run {events : List Incoming} (h : .stop ∉ events) :
    (run lib events).Serving ↔ ∀ event ∈ events, event.Tame lib := by
  induction events using List.reverseRecOn with
  | nil => exact ⟨fun _ event hmem => absurd hmem List.not_mem_nil, fun _ => ⟨trivial, trivial⟩⟩
  | append_singleton before event ih =>
      rw [List.mem_append, not_or, List.mem_singleton] at h
      rw [run_append, serving_handle ((run_stopped_iff before).mpr h.1) (Ne.symm h.2), ih h.1]
      simp only [List.mem_append, List.mem_singleton]
      constructor
      · rintro ⟨hbefore, hevent⟩ e (he | rfl)
        · exact hbefore e he
        · exact hevent
      · intro hall
        exact ⟨fun e he => hall e (.inl he), hall event (.inr rfl)⟩

/-- Both acceptors survive a sequence of peers exactly when every peer they are
given before the server is stopped is tame. -/
theorem acceptors_survive_iff (events : List Incoming) :
    Acceptors.Survive lib events ↔
      ∀ before, before <+: events → .stop ∉ before → ∀ event ∈ before, event.Tame lib := by
  constructor
  · intro hsurvive before hprefix hstop
    have hrunning : (Acceptors.run lib before)._stopped = false :=
      (Acceptors.run_stopped_iff before).mpr hstop
    exact (Acceptors.serving_run hstop).mp (hsurvive before hprefix hrunning).1
  · intro htame before hprefix hrunning
    have hstop := (Acceptors.run_stopped_iff before).mp hrunning
    have hserving := (Acceptors.serving_run hstop).mpr (htame before hprefix hstop)
    exact ⟨hserving, fun client hclient => hserving.serves hrunning hclient⟩

end Runs

namespace ClosedConnection

/-- Libraries that accept nothing; none of them is called. -/
def libraries : KeyLibraries where
  sodium_base642bin _ := none
  sodium_bin2base64 input := input
  crypto_sign_verify_detached _ _ _ := false
  crypto_kx_server_session_keys _ _ _ := none
  sodiumMsgHash := []
  Agree _ _ := none
  RSAPublicKey := Unit
  Load _ := none
  VerifyMessage _ _ _ := .ok false
  plplMsgHash := []

def drawn : SessionDrawn where
  sodiumPubKeyAes := []
  sodiumPrivKeyAes := []
  plplPubKeyAes := []
  plplPrivKeyAes := []
  peerPubKeyAes := ⟨List.replicate crypto_kx_PUBLICKEYBYTES 0, List.length_replicate⟩
  clientId := 0

/-- A client that connects and closes the socket again. -/
def connection : Connection := { chunks := [], optionSet := true, endpoints := true, drawn }

end ClosedConnection

open ClosedConnection in
/-- A connection that is closed before anything is sent ends the TCP acceptor. -/
theorem acceptors_survive_fails :
    (Acceptors.run libraries [.connection connection]).tcp = .left (some .errnoString) ∧
    ¬ Acceptors.Survive libraries [.connection connection] := by
  have hrun : (Acceptors.run libraries [.connection connection]).tcp =
      .left (some .errnoString) := by
    have hread : Tcp.readString connection.chunks = none := by
      decide +kernel
    simp [Acceptors.run, Acceptors.start, Acceptors.handle, Acceptors.handleConnection,
      TcpAcceptor.accept, TcpAcceptor.connectionType, Tcp.readMessage, hread, Outcome.require,
      Acceptors.afterTcp]
  refine ⟨hrun, fun hsurvive => ?_⟩
  have hrunning : (Acceptors.run libraries [.connection connection])._stopped = false :=
    (Acceptors.run_stopped_iff _).mpr (by simp)
  have hserving := (hsurvive _ (List.prefix_refl _) hrunning).1.tcp
  rw [hrun] at hserving
  exact hserving

end ClientServer
