import FileHopZ.Errors
import FileHopZ.Library.Buffer
import Mathlib.Data.List.Basic
import Mathlib.Order.Basic
import Mathlib.Data.UInt

/-! # `Crypto_context`

Key agreement and authenticated encryption of one endpoint.  OpenSSL's
primitives are a parameter (`Primitives`); what is modelled is how the class uses
them: the order of the two public keys in the HKDF salt, the framing of a
ciphertext as nonce, encrypted bytes and tag, and the length checks.

An OpenSSL call can also fail for reasons that lie outside its inputs.  Each
method takes the error its first failing call leads to, `fault`, and `none` when
every call succeeds; `encrypt_data` takes the nonce `RAND_bytes` produced.
-/
namespace FileHopZ

abbrev Bytes := List UInt8

/-- `KEY_LEN`. -/
def keyLen : Nat := 32
/-- `NONCE_LEN`. -/
def nonceLen : Nat := 12
/-- `TAG_LEN`. -/
def tagLen : Nat := 16
/-- `X25519_LEN`. -/
def x25519Len : Nat := 32

/-- A nonce of `NONCE_LEN` bytes. -/
abbrev Nonce := { bytes : Bytes // bytes.length = nonceLen }

/-- The nonce of zeros. -/
def Nonce.zero : Nonce := ⟨List.replicate nonceLen 0, List.length_replicate⟩

/-- The OpenSSL primitives: X25519, HKDF-SHA256 and ChaCha20-Poly1305, with the
lengths their interfaces fix. -/
structure Primitives where
  /-- X25519 private keys. -/
  PrivateKey : Type
  publicKey : PrivateKey → Bytes
  /-- `EVP_PKEY_derive` on a private key and a peer's public key. -/
  derive : PrivateKey → Bytes → Option Bytes
  /-- HKDF of a shared secret, a salt and an info label. -/
  hkdf : Bytes → Bytes → Bytes → Bytes
  /-- Encryption under a key and a nonce: the encrypted bytes and their tag. -/
  encrypt : Bytes → Bytes → Bytes → Bytes × Bytes
  /-- Decryption under a key and a nonce of encrypted bytes with a tag. -/
  decrypt : Bytes → Bytes → Bytes → Bytes → Option Bytes
  publicKey_length : ∀ k, (publicKey k).length = x25519Len
  encrypt_length : ∀ key nonce data, (encrypt key nonce data).1.length = data.length
  tag_length : ∀ key nonce data, (encrypt key nonce data).2.length = tagLen
  decrypt_length : ∀ {key nonce enc tag data}, decrypt key nonce enc tag = some data →
    data.length = enc.length

/-- The standard laws of the primitives: both parties derive one shared secret,
and decryption inverts encryption. -/
structure Primitives.Lawful (P : Primitives) : Prop where
  derive_comm : ∀ a b, P.derive a (P.publicKey b) = P.derive b (P.publicKey a)
  decrypt_encrypt : ∀ key nonce data,
    P.decrypt key nonce (P.encrypt key nonce data).1 (P.encrypt key nonce data).2 = some data

/-- Small primitives that satisfy the laws, for runs that are evaluated: addition
of bytes in place of X25519 and of the key stream, a repeated sum as tag. -/
def Primitives.additive : Primitives where
  PrivateKey := UInt8
  publicKey k := k :: List.replicate 31 0
  derive k p := some [k + p.headD 0]
  hkdf secret salt _ := Buffer.overlay (List.replicate keyLen 0) (secret ++ salt)
  encrypt key nonce data :=
    (data.map (· + (key ++ nonce).sum), List.replicate tagLen (key ++ nonce ++ data).sum)
  decrypt key nonce enc tag :=
    let data := enc.map (· - (key ++ nonce).sum)
    if tag = List.replicate tagLen (key ++ nonce ++ data).sum then some data else none
  publicKey_length _ := rfl
  encrypt_length _ _ _ := List.length_map ..
  tag_length _ _ _ := List.length_replicate
  decrypt_length {key nonce enc tag data} h := by
    dsimp only at h
    split_ifs at h
    rw [← Option.some.inj h, List.length_map]

theorem Primitives.additive_lawful : Primitives.additive.Lawful where
  derive_comm a b := congrArg (fun s : UInt8 => some [s]) (UInt8.add_comm a b)
  decrypt_encrypt key nonce data := by
    have hcancel : (data.map (· + (key ++ nonce).sum)).map (· - (key ++ nonce).sum) = data := by
      rw [List.map_map]
      exact (List.map_congr_left fun b _ => UInt8.add_sub_cancel b _).trans (List.map_id data)
    simp only [Primitives.additive, hcancel, if_true]

/-- `std::lexicographical_compare` on bytes. -/
def lexicographicalCompare : Bytes → Bytes → Bool
  | _, [] => false
  | [], _ :: _ => true
  | a :: as, b :: bs => if a < b then true else if b < a then false
      else lexicographicalCompare as bs

theorem lexicographicalCompare_asymm : ∀ {a b : Bytes},
    lexicographicalCompare a b = true → lexicographicalCompare b a = false
  | a, [], h => by simp [lexicographicalCompare] at h
  | [], _ :: _, _ => rfl
  | a :: as, b :: bs, h => by
      rw [lexicographicalCompare] at h ⊢
      split_ifs at h ⊢ with h₁ h₂ h₃
      · exact absurd h₂ (UInt8.lt_asymm h₁)
      · rfl
      · exact lexicographicalCompare_asymm h

/-- Two keys of which neither is smaller are equal. -/
theorem eq_of_not_lexicographicalCompare : ∀ {a b : Bytes},
    lexicographicalCompare a b = false → lexicographicalCompare b a = false → a = b
  | [], [], _, _ => rfl
  | [], _ :: _, h, _ => by simp [lexicographicalCompare] at h
  | _ :: _, [], _, h => by simp [lexicographicalCompare] at h
  | a :: as, b :: bs, h, h' => by
      rw [lexicographicalCompare] at h h'
      split_ifs at h h' with h₁ h₂
      have hab : a = b := UInt8.le_antisymm (UInt8.not_lt.mp h₂) (UInt8.not_lt.mp h₁)
      rw [hab, eq_of_not_lexicographicalCompare h h']

/-- The fields of `Crypto_context`. -/
structure CryptoContext (P : Primitives) where
  isReady : Bool := false
  keyHandle : Option P.PrivateKey := none
  ownPublicKey : Bytes := []
  peerPublicKey : Bytes := []
  encryptionKey : Bytes := []

namespace CryptoContext
variable {P : Primitives}

/-- `Crypto_context::init`; `generated` is the key pair `EVP_PKEY_keygen` made. -/
def init (fault : Option ErrorCode) (generated : P.PrivateKey) (c : CryptoContext P) :
    Option Error × CryptoContext P :=
  match fault with
  | some code => (some (.filehopz code), c)
  | none => (none, { c with keyHandle := some generated, ownPublicKey := P.publicKey generated })

/-- `key_purpose_label`: "x25519-chacha20poly1305". -/
def keyPurposeLabel : Bytes :=
  [120, 50, 53, 53, 49, 57, 45, 99, 104, 97, 99, 104, 97, 50, 48, 112, 111, 108, 121, 49, 51,
    48, 53]

/-- The HKDF salt: the two public keys, the smaller first. -/
def salt (own peer : Bytes) : Bytes :=
  if lexicographicalCompare own peer then own ++ peer else peer ++ own

/-- Both endpoints build the same salt. -/
theorem salt_comm (a b : Bytes) : salt a b = salt b a := by
  unfold salt
  cases hab : lexicographicalCompare a b with
  | true => simp [lexicographicalCompare_asymm hab]
  | false =>
      cases hba : lexicographicalCompare b a with
      | true => simp
      | false => rw [eq_of_not_lexicographicalCompare hab hba]

/-- `Crypto_context::set_peer_public_key`. -/
def setPeerPublicKey (fault : Option ErrorCode) (peer : Bytes) (c : CryptoContext P) :
    Option Error × CryptoContext P :=
  let c := { c with peerPublicKey := peer }
  match fault with
  | some code => (some (.filehopz code), c)
  | none =>
      match c.keyHandle.bind (P.derive · peer) with
      | none => (some (.filehopz .cryptoPeerKeyFailed), c)
      | some sharedSecret =>
          (none, { c with
            encryptionKey := P.hkdf sharedSecret (salt c.ownPublicKey peer) keyPurposeLabel
            isReady := true })

/-- What `encrypt_data` puts in a packet: nonce, encrypted bytes, tag. -/
def frame (P : Primitives) (key : Bytes) (nonce : Nonce) (data : Bytes) : Bytes :=
  nonce.1 ++ (P.encrypt key nonce.1 data).1 ++ (P.encrypt key nonce.1 data).2

/-- `Crypto_context::encrypt_data`. -/
def encryptData (fault : Option ErrorCode) (nonce : Nonce) (c : CryptoContext P) (data : Bytes) :
    Except Error Bytes :=
  if c.isReady = false then .error (.filehopz .cryptoContextNotReady)
  else match fault with
    | some code => .error (.filehopz code)
    | none => .ok (frame P c.encryptionKey nonce data)

/-- `Crypto_context::decrypt_data`. -/
def decryptData (fault : Option ErrorCode) (c : CryptoContext P) (data : Bytes) :
    Except Error Bytes :=
  if c.isReady = false then .error (.filehopz .cryptoContextNotReady)
  else if data.length ≤ nonceLen + tagLen then .error (.filehopz .cryptoCiphertextTooShort)
  else match fault with
    | some code => .error (.filehopz code)
    | none =>
        let nonce := data.take nonceLen
        let encryptedDataSize := data.length - nonceLen - tagLen
        let encryptedData := (data.drop nonceLen).take encryptedDataSize
        let tag := data.drop (data.length - tagLen)
        match P.decrypt c.encryptionKey nonce encryptedData tag with
        | some output => .ok output
        | none => .error (.filehopz .cryptoDecryptFailed)

/-! ## Facts about the framing -/

@[simp] theorem length_frame (key : Bytes) (nonce : Nonce) (data : Bytes) :
    (frame P key nonce data).length = data.length + (nonceLen + tagLen) := by
  simp only [frame, List.length_append, P.encrypt_length, P.tag_length, nonce.2]
  omega

/-- The outcome of an encryption that succeeds. -/
theorem encryptData_ok {fault : Option ErrorCode} {nonce : Nonce} {c : CryptoContext P}
    {data out : Bytes} (h : encryptData fault nonce c data = .ok out) :
    c.isReady = true ∧ out = frame P c.encryptionKey nonce data := by
  unfold encryptData at h
  split_ifs at h with hr
  cases fault with
  | some code => cases h
  | none => exact ⟨by simpa using hr, (Except.ok.inj h).symm⟩

/-- A decryption that succeeds had more than the overhead to work on, and yields
that much less. -/
theorem length_of_decryptData {fault : Option ErrorCode} {c : CryptoContext P}
    {data out : Bytes} (h : decryptData fault c data = .ok out) :
    data.length = out.length + (nonceLen + tagLen) ∧ nonceLen + tagLen < data.length := by
  unfold decryptData at h
  split_ifs at h with hr hlen
  cases fault with
  | some code => cases h
  | none =>
      dsimp only at h
      split at h
      · rename_i output hout
        obtain rfl := Except.ok.inj h
        have := P.decrypt_length hout
        simp only [List.length_take, List.length_drop] at this
        simp only [nonceLen, tagLen] at *
        omega
      · cases h

/-- No call of OpenSSL has failed where a decryption succeeds. -/
theorem decryptData_of_ok {fault : Option ErrorCode} {c : CryptoContext P} {data out : Bytes}
    (h : decryptData fault c data = .ok out) : decryptData none c data = .ok out := by
  cases fault with
  | none => exact h
  | some code =>
      unfold decryptData at h
      split_ifs at h

/-- **Decryption inverts encryption** on everything but the empty plaintext. -/
theorem decryptData_frame (hP : P.Lawful) {c : CryptoContext P} (hr : c.isReady = true)
    (nonce : Nonce) {data : Bytes} (hne : data ≠ []) :
    decryptData none c (frame P c.encryptionKey nonce data) = .ok data := by
  have hpos : 0 < data.length := List.length_pos_iff.mpr hne
  have hnonce := nonce.2
  have henc := P.encrypt_length c.encryptionKey nonce.1 data
  have htag := P.tag_length c.encryptionKey nonce.1 data
  have htake : (frame P c.encryptionKey nonce data).take nonceLen = nonce.1 := by
    rw [frame, List.append_assoc, List.take_left' hnonce]
  have hdrop : (frame P c.encryptionKey nonce data).drop nonceLen =
      (P.encrypt c.encryptionKey nonce.1 data).1 ++ (P.encrypt c.encryptionKey nonce.1 data).2 := by
    rw [frame, List.append_assoc, List.drop_left' hnonce]
  have hlast : (frame P c.encryptionKey nonce data).drop
      ((frame P c.encryptionKey nonce data).length - tagLen) =
        (P.encrypt c.encryptionKey nonce.1 data).2 := by
    rw [length_frame, frame]
    exact List.drop_left' (by rw [List.length_append, hnonce, henc]; omega)
  unfold decryptData
  rw [if_neg (by simp [hr]), if_neg (by rw [length_frame]; omega)]
  dsimp only
  rw [htake, hdrop, hlast, length_frame,
    List.take_left' (by rw [henc]; omega), hP.decrypt_encrypt]

/-- Whatever decrypts on a lawful frame is what was encrypted. -/
theorem eq_of_decryptData_frame (hP : P.Lawful) {fault : Option ErrorCode} {c : CryptoContext P}
    {nonce : Nonce} {data out : Bytes}
    (h : decryptData fault c (frame P c.encryptionKey nonce data) = .ok out) : out = data := by
  have hr : c.isReady = true := by
    by_contra hr
    unfold decryptData at h
    rw [if_pos (by simpa using hr)] at h
    cases h
  have hne : data ≠ [] := by
    rintro rfl
    have := (length_of_decryptData h).2
    simp at this
  cases fault with
  | some code =>
      unfold decryptData at h
      split_ifs at h
  | none => exact (Except.ok.inj ((decryptData_frame hP hr nonce hne).symm.trans h)).symm

/-! ## Installing the peer's key -/

/-- `set_peer_public_key` keeps the own key pair, and the peer's key whether it succeeds or not. -/
theorem keyHandle_setPeerPublicKey {fault : Option ErrorCode} {peer : Bytes}
    {c c' : CryptoContext P} {ec : Option Error} (h : c.setPeerPublicKey fault peer = (ec, c')) :
    c'.keyHandle = c.keyHandle ∧ c'.ownPublicKey = c.ownPublicKey ∧ c'.peerPublicKey = peer := by
  unfold setPeerPublicKey at h
  cases fault with
  | some code =>
      obtain ⟨-, rfl⟩ := Prod.mk.inj h
      exact ⟨rfl, rfl, rfl⟩
  | none =>
      dsimp only at h
      split at h
      · obtain ⟨-, rfl⟩ := Prod.mk.inj h
        exact ⟨rfl, rfl, rfl⟩
      · obtain ⟨-, rfl⟩ := Prod.mk.inj h
        exact ⟨rfl, rfl, rfl⟩

/-- What a successful `set_peer_public_key` has derived. -/
theorem setPeerPublicKey_ok {fault : Option ErrorCode} {peer : Bytes} {c c' : CryptoContext P}
    (h : c.setPeerPublicKey fault peer = (none, c')) :
    ∃ sharedSecret, c.keyHandle.bind (P.derive · peer) = some sharedSecret ∧ c'.isReady = true ∧
      c'.encryptionKey = P.hkdf sharedSecret (salt c.ownPublicKey peer) keyPurposeLabel := by
  unfold setPeerPublicKey at h
  cases fault with
  | some code => simp at h
  | none =>
      dsimp only at h
      split at h
      · simp at h
      · rename_i sharedSecret hsecret
        obtain rfl := (Prod.mk.inj h).2
        exact ⟨sharedSecret, hsecret, rfl, rfl⟩

/-- **The two endpoints agree on the encryption key** once each has installed the
other's public key. -/
theorem encryptionKey_agree (hP : P.Lawful) {a b : P.PrivateKey} {c d c' d' : CryptoContext P}
    {fc fd : Option ErrorCode} (hc : c.keyHandle = some a) (hcp : c.ownPublicKey = P.publicKey a)
    (hd : d.keyHandle = some b) (hdp : d.ownPublicKey = P.publicKey b)
    (hc' : c.setPeerPublicKey fc (P.publicKey b) = (none, c'))
    (hd' : d.setPeerPublicKey fd (P.publicKey a) = (none, d')) :
    c'.encryptionKey = d'.encryptionKey := by
  obtain ⟨s, hs, -, hckey⟩ := setPeerPublicKey_ok hc'
  obtain ⟨s', hs', -, hdkey⟩ := setPeerPublicKey_ok hd'
  rw [hc, Option.bind_some] at hs
  rw [hd, Option.bind_some, hP.derive_comm b a, hs] at hs'
  obtain rfl := Option.some.inj hs'
  rw [hckey, hdkey, hcp, hdp, salt_comm]

end CryptoContext
end FileHopZ
