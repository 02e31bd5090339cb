import ClientServer.Crypto.KeyObfuscation
import ClientServer.Server.Acceptor

/-!
# How a client connects

The constructors of a client, from the keys that are drawn to the answer of the
server.  The client sends a public key and a signature for each of its encryptors,
and the answer brings the number and the public keys of its session.

Behind the answer nothing of a client is kept that its constructor made but what is
in `ClientKeys`.
-/

namespace ClientServer

/-- What the constructors of the encryptors call; `DEREncode` may throw. -/
structure SigningLibraries where
  sodium_bin2base64 (input : Bytes) : Bytes
  crypto_sign_detached (message secretKey : Bytes) : Bytes
  /-- `hashMessage` of the authentication message. -/
  sodiumMsgHash : Bytes
  RSAPrivateKey : Type
  DEREncode (privateKey : RSAPrivateKey) : Except String Bytes
  SignMessage (privateKey : RSAPrivateKey) (message : Bytes) : Bytes
  /-- `sha256_hash` of the authentication message. -/
  plplMsgHash : Bytes

/-- The keys drawn for one client, and what its arrays hold before they are written:
the key and the obfuscator of each encryptor, and the public key of the peer. -/
structure ClientDrawn (RSAPrivateKey : Type) where
  sodiumPubKeyAes : Bytes
  sodiumPrivKeyAes : Bytes
  publicKeySign : Bytes
  secretKeySign : Bytes
  sodiumArrays : KeyBytes crypto_kx_SESSIONKEYBYTES × KeyBytes crypto_kx_SESSIONKEYBYTES
  peerPubKeyAes : { array : Bytes // array.length = crypto_kx_PUBLICKEYBYTES }
  plplPubKeyAes : Bytes
  plplPrivKeyAes : Bytes
  rsaPrivKey : RSAPrivateKey
  plplArrays : KeyBytes AgreedValueLength × KeyBytes AgreedValueLength

/-- The obfuscators that are generated when the keys are agreed on. -/
structure ObfuscatorsDrawn where
  sodium : KeyBytes crypto_kx_SESSIONKEYBYTES
  plpl : KeyBytes AgreedValueLength

variable (lib : Libraries) (exchange : ClientLibraries) (terminal : Terminal)
  (signing : SigningLibraries)

/-! ## The encryptors -/

namespace CryptoSodium

variable (drawn : ClientDrawn signing.RSAPrivateKey)

/-- The constructor of a client. -/
def new : Client (client exchange terminal lib.sodium) where
  keys := ⟨drawn.sodiumArrays.1, ⟨drawn.sodiumArrays.2, false⟩⟩
  _keysExchanged := false
  members := ⟨⟨false, false⟩, drawn.sodiumPubKeyAes, drawn.sodiumPrivKeyAes,
    drawn.peerPubKeyAes.val⟩

def _encodedPubKeyAes : Bytes := signing.sodium_bin2base64 drawn.sodiumPubKeyAes

def _signatureWithPubKeySign : Bytes :=
  signing.crypto_sign_detached signing.sodiumMsgHash drawn.secretKeySign ++ drawn.publicKeySign

end CryptoSodium

namespace CryptoPlPl

variable (drawn : ClientDrawn signing.RSAPrivateKey)

/-- The constructor of a client, without what it signs. -/
def new : Client (client exchange terminal lib.cryptopp) where
  keys := ⟨drawn.plplArrays.1, ⟨drawn.plplArrays.2, false⟩⟩
  _keysExchanged := false
  members := ⟨⟨false, false⟩, drawn.plplPubKeyAes, drawn.plplPrivKeyAes, []⟩

/-- `signMessage`; the source of what is signed is a string up to its first zero. -/
def signMessage (_serializedRsaPubKey : Bytes) : Bytes :=
  signing.SignMessage drawn.rsaPrivKey (signing.plplMsgHash.takeWhile (· != 0)) ++
    _serializedRsaPubKey

def _signatureWithPubKeySign : Call Bytes :=
  match signing.DEREncode drawn.rsaPrivKey with
  | .error _ => .error (.runtimeError "rsa key encode failed")
  | .ok _serializedRsaPubKey => .ok (signMessage signing drawn _serializedRsaPubKey)

end CryptoPlPl

/-! ## The client -/

/-- The members of a client that concern its keys. -/
structure ClientKeys where
  _primarySodiumEncryptor : Client (CryptoSodium.client exchange terminal lib.sodium)
  _secondaryCryptoppEncryptor : Client (CryptoPlPl.client exchange terminal lib.cryptopp)
  _primarySignatureWithKey : Bytes
  _primaryPubKeyAes : Bytes
  _secondarySignatureWithKey : Bytes
  _secondaryPubKeyAes : Bytes
  _authenticationHeader : HEADER
  _status : STATUS
  _clientId : Nat

namespace ClientKeys

/-- The header with which a client asks for a session. -/
def authenticationHeader (primarySignatureWithKey primaryPubKeyAes secondarySignatureWithKey
    secondaryPubKeyAes : Bytes) : HEADER where
  headerType := .AUTHENTICATE
  field1Size := primarySignatureWithKey.length
  field2Size := primaryPubKeyAes.length
  compressor := .NONE
  diagnostics := .NONE
  status := .NONE
  field3Size := secondarySignatureWithKey.length
  field4Size := secondaryPubKeyAes.length

/-- A client whose second encryptor has signed. -/
def ofSignature (drawn : ClientDrawn signing.RSAPrivateKey) (_secondarySignatureWithKey : Bytes) :
    ClientKeys lib exchange terminal where
  _primarySodiumEncryptor := CryptoSodium.new lib exchange terminal signing drawn
  _secondaryCryptoppEncryptor := CryptoPlPl.new lib exchange terminal signing drawn
  _primarySignatureWithKey := CryptoSodium._signatureWithPubKeySign signing drawn
  _primaryPubKeyAes := CryptoSodium._encodedPubKeyAes signing drawn
  _secondarySignatureWithKey
  _secondaryPubKeyAes := drawn.plplPubKeyAes
  _authenticationHeader := authenticationHeader
    (CryptoSodium._signatureWithPubKeySign signing drawn)
    (CryptoSodium._encodedPubKeyAes signing drawn) _secondarySignatureWithKey drawn.plplPubKeyAes
  _status := .NONE
  _clientId := 0

/-- `Client::Client`; the primary encryptor is the one of libsodium. -/
def new (drawn : ClientDrawn signing.RSAPrivateKey) : Call (ClientKeys lib exchange terminal) := do
  let _secondarySignatureWithKey ← CryptoPlPl._signatureWithPubKeySign signing drawn
  return ofSignature lib exchange terminal signing drawn _secondarySignatureWithKey

variable {lib exchange terminal} (self : ClientKeys lib exchange terminal)

/-- What `sendSignature` of a client sends. -/
def authentication : Bytes :=
  sendMessage self._authenticationHeader self._primarySignatureWithKey self._primaryPubKeyAes
    self._secondarySignatureWithKey self._secondaryPubKeyAes

/-- The encryptors note that the signature is sent, and the strings become zeros. -/
def sendSignatureCommon : ClientKeys lib exchange terminal :=
  { self with
    _primarySodiumEncryptor := self._primarySodiumEncryptor.step .sendSignature
    _secondaryCryptoppEncryptor := self._secondaryCryptoppEncryptor.step .sendSignature
    _primarySignatureWithKey := List.replicate self._primarySignatureWithKey.length 0
    _primaryPubKeyAes := List.replicate self._primaryPubKeyAes.length 0
    _secondarySignatureWithKey := List.replicate self._secondarySignatureWithKey.length 0
    _secondaryPubKeyAes := List.replicate self._secondaryPubKeyAes.length 0 }

/-- `Client::clientKeyExchange`; the flag is that of the last encryptor. -/
def clientKeyExchange (drawn : ObfuscatorsDrawn)
    (primaryPeerPubKeyAes secondaryPeerPubKeyAes : Bytes) :
    Call (ClientKeys lib exchange terminal) := do
  let (_, _primarySodiumEncryptor) ← keep
    (self._primarySodiumEncryptor.clientKeyExchange drawn.sodium primaryPeerPubKeyAes)
  let (keysExchanged, _secondaryCryptoppEncryptor) ← keep
    (self._secondaryCryptoppEncryptor.clientKeyExchange drawn.plpl secondaryPeerPubKeyAes)
  Outcome.require keysExchanged (.runtimeError "clientKeyExchange failed")
  return { self with _primarySodiumEncryptor, _secondaryCryptoppEncryptor }
where
  /-- What is left of an encryptor that throws is not used again. -/
  keep {α : Type} (exchanged : Call Bool × α) : Call (Bool × α) :=
    exchanged.1.map (·, exchanged.2)

/-- `processStatus` up to the heartbeat; what it displays is left out. -/
def processStatus (drawn : ObfuscatorsDrawn) (_header : HEADER)
    (primaryPeerPubKeyAes secondaryPeerPubKeyAes : Bytes) :
    Call (Bool × ClientKeys lib exchange terminal) :=
  let self := { self with _status := _header.status }
  match self.clientKeyExchange drawn primaryPeerPubKeyAes secondaryPeerPubKeyAes with
  | .ok self => .ok (true, self)
  | .error fault => if fault.isException then .ok (false, self) else .error fault

/-- The output strings of `receiveStatus`. -/
def statusFields : List Bytes := [[], [], []]

/-- `receiveStatus` with what its `readMessage` returns; the string of the number is
returned too. -/
def receiveStatus (drawn : ObfuscatorsDrawn) (received : Call (Bool × HEADER × List Bytes)) :
    Call (Bool × Bytes × ClientKeys lib exchange terminal) :=
  if self._status ≠ .NONE then .ok (false, [], self)
  else do
    let (ok, _header, array) ← received
    Outcome.require ok (.runtimeError "readMessage failed")
    let clientIdStr := array.getD 0 []
    match fromChars SIZE_MAX clientIdStr with
    | .error ec => .error (.errorString ec)
    | .ok (_clientId, _) => do
        let self := { self with _clientId }
        let (ok, self) ← self.processStatus drawn _header (array.getD 1 []) (array.getD 2 [])
        return (ok, clientIdStr, self)

end ClientKeys

/-- What a client draws in its constructor. -/
structure ConnectDrawn (RSAPrivateKey : Type) extends ClientDrawn RSAPrivateKey where
  obfuscators : ObfuscatorsDrawn

/-- The socket of a client: whether it connects, whether `sendMessage` returns true, the
chunks that come in, and whether the endpoints can be asked for. -/
structure ClientSocket where
  connected : Bool
  sent : Bool
  chunks : List Bytes
  endpoints : Bool

/-- The acceptor pipe of a client: what `sendMessage` does, whether the pipe opens for
reading and what the reads return. -/
structure ClientPipe where
  sent : Call Bool
  opened : Bool
  results : List ReadResult

/-- `TcpClient::TcpClient`. -/
def TcpClient.new (drawn : ConnectDrawn signing.RSAPrivateKey) (socket : ClientSocket) :
    Call (ClientKeys lib exchange terminal) := do
  let client ← ClientKeys.new lib exchange terminal signing drawn.toClientDrawn
  Outcome.require socket.connected .errnoString
  Outcome.require socket.sent (.runtimeError "TcpClient::init failed")
  let client := client.sendSignatureCommon
  let (received, _, client) ← client.receiveStatus drawn.obfuscators
    (Tcp.readMessage socket.chunks default ClientKeys.statusFields)
  Outcome.require received (.runtimeError "TcpClient::receiveStatus failed")
  Outcome.require socket.endpoints .systemError
  return client

/-- The name of the pipe of a session, for the session and for its client. -/
def _fifoName (_fifoDirectoryName clientIdStr : Bytes) : Bytes :=
  _fifoDirectoryName ++ bytes "/" ++ clientIdStr

/-- `FifoClient::FifoClient`, with the name of the pipe it goes on with. -/
def FifoClient.new (drawn : ConnectDrawn signing.RSAPrivateKey) (_fifoDirectoryName : Bytes)
    (pipe : ClientPipe) : Call (Bytes × ClientKeys lib exchange terminal) := do
  let client ← ClientKeys.new lib exchange terminal signing drawn.toClientDrawn
  let sent ← pipe.sent
  Outcome.require sent (.runtimeError "FifoClient::sendSignature failed")
  let client := client.sendSignatureCommon
  let (received, clientIdStr, client) ← client.receiveStatus drawn.obfuscators
    (Fifo.readMessage pipe.opened pipe.results default ClientKeys.statusFields)
  Outcome.require received (.runtimeError "FifoClient::receiveStatus failed")
  return (_fifoName _fifoDirectoryName clientIdStr, client)

/-- The pipe `FifoSession::start` makes. -/
def FifoSession._fifoName (_fifoDirectoryName : Bytes) (session : Session) : Bytes :=
  ClientServer._fifoName _fifoDirectoryName (toCharsBoost session._clientId false)

/-! ## The two ends -/

/-- The two encryptors as every later call of the client uses them. -/
def ClientKeys.toEnd {lib : Libraries} {exchange : ClientLibraries} {terminal : Terminal}
    (self : ClientKeys lib exchange terminal) : End where
  terminal
  sodium := ⟨self._primarySodiumEncryptor.members.base,
    self._primarySodiumEncryptor.keys.recoverKey._key.toList⟩
  plpl := ⟨self._secondaryCryptoppEncryptor.members.base,
    self._secondaryCryptoppEncryptor.keys.recoverKey._key.toList⟩

def Session.toEnd (session : Session) (terminal : Terminal) : End where
  terminal
  sodium := session._primarySodiumEncryptor
  plpl := session._secondaryCryptoppEncryptor

/-- The process of a client that was started in a terminal. -/
def Terminal.ofClient (terminal : Bytes) : Terminal := ⟨some terminal, [], terminal, []⟩

/-- The process of a server that was started in a terminal. -/
def Terminal.ofServer (terminal : Bytes) : Terminal := ⟨some terminal, terminal, [], []⟩

end ClientServer
