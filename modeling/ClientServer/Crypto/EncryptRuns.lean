import ClientServer.Crypto.Pipeline

/-!
# Encryption on one thread

`CryptoSodium::encrypt` puts the plaintext together in a string that lives as
long as its thread, and all encryptors used there share it.  A call with a header
assigns to the string; a call without one appends to what it finds.

So a call encrypts its own bytes if it passes a header or nothing was put into
the string before it, and `encrypt_own_iff` says that it does not otherwise.
-/

namespace ClientServer.CryptoSodium

/-- The arguments of one call of `encrypt`, the encryptor among them, and the
nonce the call draws. -/
structure EncryptCall where
  self : CryptoSodium
  nonce : Nonce
  header : Option HEADER
  data : Bytes

namespace EncryptCall

variable (lib : Sodium) (terminal : Terminal) (call : EncryptCall)

/-- The call with what it finds in `input`: its result and what it leaves there. -/
def run (input : Bytes) : Call Bytes × Bytes :=
  encrypt lib terminal call.self call.nonce input call.header call.data

/-- What the caller wants encrypted. -/
def message : Bytes := call.header.elim [] serialize ++ call.data

def Granted : Prop := checkAccess terminal call.self.toCryptoBase = .ok true

instance : Decidable (call.Granted terminal) := inferInstanceAs (Decidable (_ = _))

/-- What the call hands to the library. -/
def plaintext (input : Bytes) : Option Bytes :=
  if call.Granted terminal then some (call.header.elim input serialize ++ call.data) else none

/-- The call encrypts its own message and nothing else, and it returns what it
would return on a new thread. -/
structure Own (input : Bytes) : Prop where
  plaintext : ∀ message, call.plaintext terminal input = some message → message = call.message
  decrypts : ∀ ciphertext, (call.run lib terminal input).1 = .ok (ciphertext ++ call.nonce.val) →
    lib.crypto_aead_aes256gcm_decrypt ciphertext call.nonce.val call.self._key =
      some call.message
  fresh : (call.run lib terminal input).1 = (call.run lib terminal []).1

end EncryptCall

/-- The thread-local `input` behind a sequence of calls. -/
def threadInput (lib : Sodium) (terminal : Terminal) : (input : Bytes) → List EncryptCall → Bytes
  | input, [] => input
  | input, call :: calls => threadInput lib terminal (call.run lib terminal input).2 calls

/-! ## One call -/

namespace EncryptCall

variable {lib : Sodium} {terminal : Terminal} {call : EncryptCall} {input message : Bytes}

/-- A call that is refused leaves the string alone. -/
theorem run_of_not_granted (h : ¬ call.Granted terminal) :
    ∃ fault, ∀ input, call.run lib terminal input = (.error fault, input) := by
  unfold run encrypt
  rw [Granted] at h
  match haccess : checkAccess terminal call.self.toCryptoBase with
  | .error fault => exact ⟨fault, fun _ => rfl⟩
  | .ok false => exact ⟨_, fun _ => rfl⟩
  | .ok true => exact absurd haccess h

/-- The plaintext is handed to the library and stays in the string, or is wiped
there if the library fails. -/
theorem run_of_plaintext (h : call.plaintext terminal input = some message) :
    call.run lib terminal input =
      match lib.crypto_aead_aes256gcm_encrypt message call.nonce.val call.self._key with
      | none => (.error (.runtimeError "encrypt failed"), List.replicate message.length 0)
      | some buffer => (.ok (buffer ++ call.nonce.val), message) := by
  rw [plaintext] at h
  split at h
  · next hgranted =>
      rw [Granted] at hgranted
      obtain rfl := Option.some.inj h
      unfold run encrypt
      rw [hgranted]
      cases call.header <;> rfl
  · cases h

theorem plaintext_of_not_granted (h : ¬ call.Granted terminal) :
    call.plaintext terminal input = none := if_neg h

/-- With a header or an empty string the plaintext is the message. -/
theorem plaintext_of_clear (input : Bytes) (h : call.Granted terminal)
    (hclear : call.header.isSome = true ∨ input = []) :
    call.plaintext terminal input = some call.message := by
  rw [plaintext, if_pos h, EncryptCall.message]
  cases hheader : call.header with
  | some header => rfl
  | none =>
      rw [hheader] at hclear
      rw [hclear.resolve_left (by simp)]

/-- Without a header it begins with what was in the string. -/
theorem plaintext_of_no_header (input : Bytes) (h : call.Granted terminal)
    (hheader : call.header = none) :
    call.plaintext terminal input = some (input ++ call.message) := by
  rw [plaintext, if_pos h, EncryptCall.message, hheader]
  rfl

theorem message_ne_nil {header : HEADER} (hheader : call.header = some header) :
    call.message ≠ [] := by
  rw [EncryptCall.message, hheader, Option.elim_some]
  refine List.append_ne_nil_of_left_ne_nil (List.ne_nil_of_length_pos ?_) _
  rw [length_serialize]
  decide

theorem length_left (h : call.plaintext terminal input = some message) :
    (call.run lib terminal input).2.length = message.length := by
  rw [run_of_plaintext h]
  split <;> simp

/-- A call leaves the string empty only if it was, and if it adds nothing. -/
theorem left_eq_nil_iff :
    (call.run lib terminal input).2 = [] ↔
      input = [] ∧ (call.Granted terminal → call.message = []) := by
  by_cases hgranted : call.Granted terminal
  · cases hheader : call.header with
    | some header =>
        have hplaintext := plaintext_of_clear input hgranted (.inl (by simp [hheader]))
        have hne := message_ne_nil hheader
        rw [← List.length_eq_zero_iff, length_left hplaintext, List.length_eq_zero_iff]
        simp [hne, hgranted]
    | none =>
        have hplaintext := plaintext_of_no_header input hgranted hheader
        rw [← List.length_eq_zero_iff, length_left hplaintext, List.length_eq_zero_iff,
          List.append_eq_nil_iff]
        simp [hgranted]
  · obtain ⟨fault, hrun⟩ := @run_of_not_granted lib terminal call hgranted
    rw [hrun]
    simp [hgranted]

end EncryptCall

/-! ## A thread -/

variable {lib : Sodium} {terminal : Terminal}

theorem threadInput_eq_nil_iff {calls : List EncryptCall} {input : Bytes} :
    threadInput lib terminal input calls = [] ↔
      input = [] ∧ ∀ call ∈ calls, call.Granted terminal → call.message = [] := by
  induction calls generalizing input with
  | nil => simp [threadInput]
  | cons call calls ih =>
      rw [threadInput, ih, EncryptCall.left_eq_nil_iff, List.forall_mem_cons, and_assoc]

/-- What a call finds in the string does not matter if it passes a header, and
if the string is empty. -/
theorem EncryptCall.own_of_clear {call : EncryptCall} {input : Bytes}
    (hlib : ∀ message nonce key ciphertext,
      lib.crypto_aead_aes256gcm_encrypt message nonce key = some ciphertext →
      lib.crypto_aead_aes256gcm_decrypt ciphertext nonce key = some message)
    (hclear : call.Granted terminal → call.header.isSome = true ∨ input = []) :
    call.Own lib terminal input := by
  by_cases hgranted : call.Granted terminal
  · have hplaintext := plaintext_of_clear input hgranted (hclear hgranted)
    have hfresh := plaintext_of_clear [] hgranted (.inr rfl)
    constructor
    · intro message hmessage
      rw [hplaintext] at hmessage
      exact (Option.some.inj hmessage).symm
    · intro ciphertext hresult
      rw [run_of_plaintext hplaintext] at hresult
      cases hencrypt : lib.crypto_aead_aes256gcm_encrypt call.message call.nonce.val
          call.self._key with
      | none => simp [hencrypt] at hresult
      | some buffer =>
          simp only [hencrypt, Except.ok.injEq, List.append_cancel_right_eq] at hresult
          exact hlib _ _ _ _ (hresult ▸ hencrypt)
    · rw [run_of_plaintext hplaintext, run_of_plaintext hfresh]
  · obtain ⟨fault, hrun⟩ := @run_of_not_granted lib terminal call hgranted
    constructor
    · intro message hmessage
      rw [plaintext_of_not_granted hgranted] at hmessage
      cases hmessage
    · intro ciphertext hresult
      rw [hrun] at hresult
      cases hresult
    · rw [hrun, hrun]

/-- In any sequence of calls on a thread, a call encrypts its own message exactly
if it is refused, passes a header, or comes behind calls that had nothing to
encrypt. -/
theorem encrypt_own_iff
    (hlib : ∀ message nonce key ciphertext,
      lib.crypto_aead_aes256gcm_encrypt message nonce key = some ciphertext →
      lib.crypto_aead_aes256gcm_decrypt ciphertext nonce key = some message)
    (before : List EncryptCall) (call : EncryptCall) :
    call.Own lib terminal (threadInput lib terminal [] before) ↔
      (call.Granted terminal → call.header.isSome = true ∨
        ∀ earlier ∈ before, earlier.Granted terminal → earlier.message = []) := by
  have hempty : threadInput lib terminal [] before = [] ↔
      ∀ earlier ∈ before, earlier.Granted terminal → earlier.message = [] := by
    rw [threadInput_eq_nil_iff]
    simp
  constructor
  · intro hown hgranted
    rw [← hempty]
    cases hheader : call.header with
    | some header => exact .inl rfl
    | none =>
        have hmessage := hown.plaintext _ (EncryptCall.plaintext_of_no_header _ hgranted hheader)
        exact .inr (List.append_left_eq_self.mp hmessage)
  · intro hclear
    refine EncryptCall.own_of_clear hlib fun hgranted => ?_
    rw [hempty]
    exact hclear hgranted

/-! ### A short request and a string behind it -/

open ShortRequest (client drawn header packed data sodium)

/-- The client encrypts a request. -/
def requestCall : EncryptCall := ⟨client.sodium, drawn.nonce, some header, packed⟩

/-- It encrypts three bytes without a header. -/
def plainCall : EncryptCall := ⟨client.sodium, drawn.nonce, none, data⟩

theorem encrypt_own_secondRequest :
    requestCall.Own sodium client.terminal
        (threadInput sodium client.terminal [] [requestCall]) ↔
      (requestCall.Granted client.terminal →
        requestCall.header.isSome = true ∨
          ∀ earlier ∈ [requestCall],
            earlier.Granted client.terminal → earlier.message = []) :=
  encrypt_own_iff
    (fun message nonce key ciphertext hencrypt => by
      obtain ⟨rfl, rfl, rfl⟩ := ShortRequest.eq_of_sodium_eq_some hencrypt
      have hkey : key = ShortRequest.sodiumKey := by
        by_contra hne
        simp [sodium, hne] at hencrypt
      rw [hkey]
      decide +kernel)
    [requestCall] requestCall

/-- The three bytes are encrypted with the request in front of them. -/
theorem encrypt_own_fails :
    plainCall.plaintext client.terminal
        (threadInput sodium client.terminal [] [requestCall]) =
      some (serialize header ++ packed ++ data) ∧
    plainCall.message = data ∧
    ¬ plainCall.Own sodium client.terminal
      (threadInput sodium client.terminal [] [requestCall]) := by
  have hplaintext : plainCall.plaintext client.terminal
      (threadInput sodium client.terminal [] [requestCall]) =
      some (serialize header ++ packed ++ data) := by
    decide +kernel
  refine ⟨hplaintext, rfl, fun hown => ?_⟩
  have hmessage := hown.plaintext _ hplaintext
  exact absurd hmessage (by decide +kernel)

end ClientServer.CryptoSodium
