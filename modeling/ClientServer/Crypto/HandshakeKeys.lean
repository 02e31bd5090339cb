import ClientServer.Crypto.Handshake

/-!
# Which handshakes agree on secret keys

The key of the primary layer is a hash over both public keys, so that the sides
agree just when each has the public key of the other.  The key of the secondary
layer is the bare product: the sides also agree when both were given the public
key of the other multiplied by the same scalars.
-/

namespace ClientServer.Handshake

open Attacker (Term Own verify AtMostOneSecret)

/-! ## What a side computes -/

theorem scalarmult_eq_some {curve : Curve} {sk : Scalar} {message q : Message}
    (h : scalarmult curve sk message = some q) :
    ∃ scalars, message = .point curve scalars ∧ q = .point curve (sk ::ₘ scalars) := by
  rw [scalarmult.eq_def] at h
  split at h
  next curve' scalars =>
    split at h
    next hcurve =>
      cases h
      exact ⟨scalars, by rw [hcurve], rfl⟩
    next => cases h
  next => cases h

/-- What a side was given are points of the two curves, and its keys are made of
its scalars and these. -/
structure Computed (side : Layer → Scalar) (key : (q peer : Message) → Message)
    (exchange : Exchange) (primary secondary : Multiset Scalar) : Prop where
  primaryPeer : exchange.primaryPeer = .point .curve25519 primary
  secondaryPeer : exchange.secondaryPeer = .point .secp256r1 secondary
  primaryKey : exchange.primaryKey =
    key (.point .curve25519 (side .primary ::ₘ primary)) (.point .curve25519 primary)
  secondaryKey : exchange.secondaryKey = .point .secp256r1 (side .secondary ::ₘ secondary)

/-- The key of the server from the product and the public key of the peer. -/
def serverKey (q peer : Message) : Message :=
  Sodium.crypto_kx_session_key q peer (publicKey .curve25519 (.server .primary))

def clientKey (q peer : Message) : Message :=
  Sodium.crypto_kx_session_key q (publicKey .curve25519 (.client .primary)) peer

theorem Sodium.session_ok {sk : Scalar} {peer signatureWithPubKeySign key : Message}
    (h : Sodium.session sk peer signatureWithPubKeySign = .ok key) :
    ∃ scalars, peer = .point .curve25519 scalars ∧
      key = crypto_kx_session_key (.point .curve25519 (sk ::ₘ scalars)) peer
        (publicKey .curve25519 sk) := by
  rw [Sodium.session.eq_def] at h
  split at h
  next signature verifyKey =>
    rw [Outcome.bind_eq_ok] at h
    obtain ⟨_, _, h⟩ := h
    rw [Outcome.orThrow_eq_ok, crypto_kx_server_session_keys, Option.map_eq_some_iff] at h
    obtain ⟨q, hq, hkey⟩ := h
    obtain ⟨scalars, hpeer, hproduct⟩ := scalarmult_eq_some hq
    exact ⟨scalars, hpeer, by rw [← hkey, hproduct]⟩
  next => cases h

theorem Sodium.clientKeyExchange_ok {sk : Scalar} {peer key : Message}
    (h : Sodium.clientKeyExchange sk peer = .ok key) :
    ∃ scalars, peer = .point .curve25519 scalars ∧
      key = crypto_kx_session_key (.point .curve25519 (sk ::ₘ scalars))
        (publicKey .curve25519 sk) peer := by
  rw [Sodium.clientKeyExchange, Outcome.orThrow_eq_ok, crypto_kx_client_session_keys,
    Option.map_eq_some_iff] at h
  obtain ⟨q, hq, hkey⟩ := h
  obtain ⟨scalars, hpeer, hproduct⟩ := scalarmult_eq_some hq
  exact ⟨scalars, hpeer, by rw [← hkey, hproduct]⟩

theorem PlPl.session_ok {sk : Scalar} {peer signatureWithPubKey key : Message}
    (h : PlPl.session sk peer signatureWithPubKey = .ok key) :
    ∃ scalars, peer = .point .secp256r1 scalars ∧ key = .point .secp256r1 (sk ::ₘ scalars) := by
  rw [PlPl.session, Outcome.bind_eq_ok] at h
  obtain ⟨q, hq, h⟩ := h
  rw [Outcome.orThrow_eq_ok] at hq
  split at h
  next signature k =>
    rw [Outcome.bind_eq_ok] at h
    obtain ⟨_, _, h⟩ := h
    cases h
    exact scalarmult_eq_some hq
  next => cases h

theorem session_ok {primarySignatureWithKey primaryPubKeyAes secondarySignatureWithKey
    secondaryPubKeyAes : Message} {exchange : Exchange}
    (h : session primarySignatureWithKey primaryPubKeyAes secondarySignatureWithKey
      secondaryPubKeyAes = .ok exchange) :
    ∃ primary secondary, Computed .server serverKey exchange primary secondary := by
  rw [session, Outcome.bind_eq_ok] at h
  obtain ⟨primaryKey, hprimary, h⟩ := h
  rw [Outcome.bind_eq_ok] at h
  obtain ⟨secondaryKey, hsecondary, h⟩ := h
  cases h
  obtain ⟨primary, rfl, rfl⟩ := Sodium.session_ok hprimary
  obtain ⟨secondary, rfl, rfl⟩ := PlPl.session_ok hsecondary
  exact ⟨primary, secondary, rfl, rfl, rfl, rfl⟩

theorem clientKeyExchange_ok {primaryPeerPubKeyAes secondaryPeerPubKeyAes : Message}
    {exchange : Exchange}
    (h : clientKeyExchange primaryPeerPubKeyAes secondaryPeerPubKeyAes = .ok exchange) :
    ∃ primary secondary, Computed .client clientKey exchange primary secondary := by
  rw [clientKeyExchange, Outcome.bind_eq_ok] at h
  obtain ⟨primaryKey, hprimary, h⟩ := h
  rw [Outcome.bind_eq_ok] at h
  obtain ⟨secondaryKey, hsecondary, h⟩ := h
  cases h
  obtain ⟨primary, rfl, rfl⟩ := Sodium.clientKeyExchange_ok hprimary
  rw [PlPl.clientKeyExchange, Outcome.orThrow_eq_ok] at hsecondary
  obtain ⟨secondary, rfl, rfl⟩ := scalarmult_eq_some hsecondary
  exact ⟨primary, secondary, rfl, rfl, rfl, rfl⟩

/-! ## What the attacker sees -/

/-- Nothing is sent in which two secret scalars meet. -/
theorem harmless_publicKey (curve : Curve) (sk : Scalar) :
    (publicKey curve sk).Harmless own :=
  Attacker.atMostOneSecret_singleton sk

theorem harmless_authenticate : ∀ message ∈ authenticate, message.Harmless own := by
  intro message hmem
  simp only [authenticate, List.mem_cons, List.not_mem_nil, or_false] at hmem
  obtain rfl | rfl | rfl | rfl := hmem
  · exact ⟨⟨trivial, trivial⟩, trivial⟩
  · exact harmless_publicKey _ _
  · exact ⟨⟨trivial, trivial⟩, trivial⟩
  · exact harmless_publicKey _ _

theorem harmless_handshake : ∀ message ∈ handshake, message.Harmless own := by
  intro message hmem
  simp only [handshake, List.mem_cons, List.not_mem_nil, or_false] at hmem
  obtain rfl | rfl := hmem
  · exact harmless_publicKey _ _
  · exact harmless_publicKey _ _

/-- What holds in every state. -/
structure Inv (s : State) : Prop where
  harmless : ∀ message ∈ s.sent, message.Harmless own
  session : ∀ {exchange}, s.session = some exchange →
    ∃ primary secondary, Computed .server serverKey exchange primary secondary
  client : ∀ {exchange}, s.client = some exchange →
    ∃ primary secondary, Computed .client clientKey exchange primary secondary

theorem Inv.step {s s' : State} (h : Inv s) (hs : Step s s') : Inv s' := by
  cases hs with
  | send =>
      exact { h with harmless := List.forall_mem_append.mpr ⟨h.harmless, harmless_authenticate⟩ }
  | accept _ _ _ _ _ hsession =>
      refine ⟨List.forall_mem_append.mpr ⟨h.harmless, harmless_handshake⟩, ?_, h.client⟩
      intro exchange hexchange
      cases hexchange
      exact session_ok hsession
  | finish _ _ _ _ hclient =>
      refine ⟨h.harmless, h.session, ?_⟩
      intro exchange hexchange
      cases hexchange
      exact clientKeyExchange_ok hclient

theorem Reachable.inv {s : State} (h : Reachable s) : Inv s := by
  induction h with
  | refl => exact ⟨nofun, nofun, nofun⟩
  | tail _ hs ih => exact ih.step hs

/-- A product of two secrets, or a hash of it, is not derived. -/
theorem Inv.not_derives {s : State} (h : Inv s) {message : Message}
    (hmessage : ¬ message.Harmless own) : ¬ s.Derives message :=
  Attacker.not_derives h.harmless hmessage

theorem not_own_client (layer : Layer) : ¬ own.scalar (.client layer) := by
  intro ⟨_, h⟩
  cases h

theorem not_own_server (layer : Layer) : ¬ own.scalar (.server layer) := by
  intro ⟨_, h⟩
  cases h

theorem not_harmless_point (curve : Curve) (layer : Layer) (scalars : Multiset Scalar) :
    ¬ (Attacker.Term.point curve (.client layer ::ₘ .server layer ::ₘ scalars) :
      Message).Harmless own :=
  Attacker.not_atMostOneSecret (not_own_client layer) (not_own_server layer)

/-! ## Agreement -/

/-- Both sides have the key of a layer, and the attacker does not. -/
def Secure (s : State) (session client : Exchange) (layer : Layer) : Prop :=
  session.key layer = client.key layer ∧ ¬ s.Derives (client.key layer)

/-- Each side was given the public key of the other: unchanged for the primary
layer, multiplied by the same scalars for the secondary layer. -/
structure Undisturbed (session client : Exchange) : Prop where
  clientKey : session.primaryPeer = publicKey .curve25519 (.client .primary)
  serverKey : client.primaryPeer = publicKey .curve25519 (.server .primary)
  secondary : ∃ scalars,
    session.secondaryPeer = .point .secp256r1 (.client .secondary ::ₘ scalars) ∧
    client.secondaryPeer = .point .secp256r1 (.server .secondary ::ₘ scalars)

section Agreement

variable {s : State} {session client : Exchange} {primary secondary primary' secondary' :
  Multiset Scalar}

theorem secure_primary_iff (h : Inv s) (hs : Computed .server serverKey session primary secondary)
    (hc : Computed .client clientKey client primary' secondary') :
    Secure s session client .primary ↔
      session.primaryPeer = publicKey .curve25519 (.client .primary) ∧
      client.primaryPeer = publicKey .curve25519 (.server .primary) := by
  rw [Secure, Exchange.key, Exchange.key, hs.primaryKey, hc.primaryKey, hs.primaryPeer,
    hc.primaryPeer]
  constructor
  · intro hsecure
    have hhash := Attacker.Term.hash.inj hsecure.1
    obtain ⟨_, hkeys⟩ := Attacker.Term.pair.inj hhash
    obtain ⟨hclient, hserver⟩ := Attacker.Term.pair.inj hkeys
    exact ⟨hclient, hserver.symm⟩
  · intro ⟨hclient, hserver⟩
    obtain ⟨_, hprimary⟩ := Attacker.Term.point.inj hclient
    obtain ⟨_, hprimary'⟩ := Attacker.Term.point.inj hserver
    subst hprimary
    subst hprimary'
    constructor
    · have hproduct : Scalar.server .primary ::ₘ {Scalar.client .primary} =
          Scalar.client .primary ::ₘ {Scalar.server .primary} := Multiset.cons_swap _ _ 0
      rw [hproduct]
      rfl
    · refine h.not_derives fun hharmless => ?_
      exact not_harmless_point .curve25519 .primary 0 hharmless.1

theorem secure_secondary_iff (h : Inv s)
    (hs : Computed .server serverKey session primary secondary)
    (hc : Computed .client clientKey client primary' secondary') :
    Secure s session client .secondary ↔ ∃ scalars,
      session.secondaryPeer = .point .secp256r1 (.client .secondary ::ₘ scalars) ∧
      client.secondaryPeer = .point .secp256r1 (.server .secondary ::ₘ scalars) := by
  rw [Secure, Exchange.key, Exchange.key, hs.secondaryKey, hc.secondaryKey, hs.secondaryPeer,
    hc.secondaryPeer]
  constructor
  · intro hsecure
    obtain ⟨_, hproduct⟩ := Attacker.Term.point.inj hsecure.1
    rw [Multiset.cons_eq_cons] at hproduct
    obtain ⟨heq, _⟩ | ⟨_, scalars, hsecondary, hsecondary'⟩ := hproduct
    · cases heq
    · exact ⟨scalars, by rw [hsecondary], by rw [hsecondary']⟩
  · intro ⟨scalars, hclient, hserver⟩
    obtain ⟨_, hsecondary⟩ := Attacker.Term.point.inj hclient
    obtain ⟨_, hsecondary'⟩ := Attacker.Term.point.inj hserver
    subst hsecondary
    subst hsecondary'
    refine ⟨congrArg _ (Multiset.cons_swap _ _ _), h.not_derives ?_⟩
    exact not_harmless_point .secp256r1 .secondary scalars

end Agreement

/-! ## Runs -/

/-- A run in which the session and the client get what the attacker derives. -/
theorem reachable_of {primarySignatureWithKey primaryPubKeyAes secondarySignatureWithKey
    secondaryPubKeyAes primaryPeerPubKeyAes secondaryPeerPubKeyAes : Message}
    {server client : Exchange}
    (h1 : Attacker.Derives own (· ∈ authenticate) primarySignatureWithKey)
    (h2 : Attacker.Derives own (· ∈ authenticate) primaryPubKeyAes)
    (h3 : Attacker.Derives own (· ∈ authenticate) secondarySignatureWithKey)
    (h4 : Attacker.Derives own (· ∈ authenticate) secondaryPubKeyAes)
    (hserver : session primarySignatureWithKey primaryPubKeyAes secondarySignatureWithKey
      secondaryPubKeyAes = .ok server)
    (h5 : Attacker.Derives own (· ∈ authenticate ++ handshake) primaryPeerPubKeyAes)
    (h6 : Attacker.Derives own (· ∈ authenticate ++ handshake) secondaryPeerPubKeyAes)
    (hclient : clientKeyExchange primaryPeerPubKeyAes secondaryPeerPubKeyAes = .ok client) :
    Reachable ⟨authenticate ++ handshake, true, some server, some client⟩ := by
  have hsent : Reachable ⟨authenticate, true, none, none⟩ :=
    .tail .refl (.send rfl)
  have haccepted : Reachable ⟨authenticate ++ handshake, true, some server, none⟩ :=
    hsent.tail (.accept rfl h1 h2 h3 h4 hserver)
  exact haccepted.tail (.finish rfl rfl h5 h6 hclient)

/-- The public key of the attacker. -/
theorem derives_own {known : Message → Prop} (curve : Curve) :
    Attacker.Derives own known (publicKey curve (.attacker 0)) :=
  .multiply (.scalar ⟨0, rfl⟩) (.base curve)

/-- The attacker computes the product with a public key it has seen. -/
theorem derives_product {known : Message → Prop} {curve : Curve} {sk : Scalar}
    (h : known (publicKey curve sk)) :
    Attacker.Derives own known (.point curve {sk, .attacker 0}) := by
  have hproduct : ({sk, .attacker 0} : Multiset Scalar) = .attacker 0 ::ₘ {sk} :=
    Multiset.cons_swap sk (.attacker 0) 0
  rw [hproduct]
  exact .multiply (.scalar ⟨0, rfl⟩) (.known h)

/-- Whatever the attacker did: the sides agree on keys that the attacker does not
have if and only if each was given the public keys of the other. -/
theorem handshake_secure_iff {s : State} (h : Reachable s) {session client : Exchange}
    (hsession : s.session = some session) (hclient : s.client = some client) :
    (∀ layer, Secure s session client layer) ↔ Undisturbed session client := by
  obtain ⟨_, _, hs⟩ := h.inv.session hsession
  obtain ⟨_, _, hc⟩ := h.inv.client hclient
  have hprimary := secure_primary_iff h.inv hs hc
  have hsecondary := secure_secondary_iff h.inv hs hc
  constructor
  · intro hsecure
    obtain ⟨hclientKey, hserverKey⟩ := hprimary.mp (hsecure .primary)
    exact ⟨hclientKey, hserverKey, hsecondary.mp (hsecure .secondary)⟩
  · intro hundisturbed layer
    cases layer with
    | primary => exact hprimary.mpr ⟨hundisturbed.clientKey, hundisturbed.serverKey⟩
    | secondary => exact hsecondary.mpr hundisturbed.secondary

/-- The attacker passes on what both send. -/
theorem handshake_secure_passedOn :
    ∃ s server client, s.session = some server ∧ s.client = some client ∧
      ∀ layer, Secure s server client layer := by
  have hrun := reachable_of
    (.known (List.mem_cons_self ..)) (.known (.tail _ (List.mem_cons_self ..)))
    (.known (.tail _ (.tail _ (List.mem_cons_self ..))))
    (.known (.tail _ (.tail _ (.tail _ (List.mem_cons_self ..))))) rfl
    (.known (List.mem_append_right authenticate (List.mem_cons_self ..)))
    (.known (List.mem_append_right authenticate (.tail _ (List.mem_cons_self ..)))) rfl
  exact ⟨_, _, _, rfl, rfl, (handshake_secure_iff hrun rfl rfl).mpr ⟨rfl, rfl, 0, rfl, rfl⟩⟩

/-- The attacker leaves the signatures as they are and gives both sides public keys
of its own: both accept, and it has the keys of both. -/
theorem handshake_manInTheMiddle :
    ∃ s server client, Reachable s ∧ s.session = some server ∧ s.client = some client ∧
      ∀ layer, server.key layer ≠ client.key layer ∧ s.Derives (server.key layer) ∧
        s.Derives (client.key layer) := by
  have hrun := reachable_of
    (.known (List.mem_cons_self ..)) (derives_own .curve25519)
    (.known (.tail _ (.tail _ (List.mem_cons_self ..)))) (derives_own .secp256r1) rfl
    (derives_own .curve25519) (derives_own .secp256r1) rfl
  have hclient : publicKey .curve25519 (.client .primary) ∈ authenticate ++ handshake :=
    .tail _ (List.mem_cons_self ..)
  have hclient' : publicKey .secp256r1 (.client .secondary) ∈ authenticate ++ handshake :=
    .tail _ (.tail _ (.tail _ (List.mem_cons_self ..)))
  have hserver : publicKey .curve25519 (.server .primary) ∈ authenticate ++ handshake :=
    List.mem_append_right authenticate (List.mem_cons_self ..)
  have hserver' : publicKey .secp256r1 (.server .secondary) ∈ authenticate ++ handshake :=
    List.mem_append_right authenticate (.tail _ (List.mem_cons_self ..))
  refine ⟨_, _, _, hrun, rfl, rfl, fun layer => ?_⟩
  cases layer with
  | primary =>
      refine ⟨by decide, ?_, ?_⟩
      · exact .hash (.pair (derives_product hserver) (.pair (derives_own _) (.known hserver)))
      · exact .hash (.pair (derives_product hclient) (.pair (.known hclient) (derives_own _)))
  | secondary => exact ⟨by decide, derives_product hserver', derives_product hclient'⟩

end ClientServer.Handshake
