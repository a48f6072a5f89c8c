import FileHopZ.Utils.CryptoContext

/-! # Two contexts that know each other's key

`decryptData` cuts its input with total functions.  `decryptSlices` is the same method with
the ranges of bytes that `decrypt_data` hands to OpenSSL, computed in `std::size_t`; a range
that leaves the input makes it `none`.
-/
namespace FileHopZ

/-- `count` bytes of `data` from `offset` on, where they lie in `data`. -/
def slice (data : Bytes) (offset count : Nat) : Option Bytes :=
  if offset + count ≤ data.length then some ((data.drop offset).take count) else none

theorem slice_of_le {data : Bytes} {offset count : Nat} (h : offset + count ≤ data.length) :
    slice data offset count = some ((data.drop offset).take count) := if_pos h

namespace CryptoContext
variable {P : Primitives}

/-! ## The ranges of `decrypt_data` -/

/-- `Crypto_context::decrypt_data` with its ranges checked. -/
def decryptSlices (fault : Option ErrorCode) (c : CryptoContext P) (data : Bytes) :
    Option (Except Error Bytes) :=
  if c.isReady = false then some (.error (.filehopz .cryptoContextNotReady))
  else if data.length ≤ nonceLen + tagLen then some (.error (.filehopz .cryptoCiphertextTooShort))
  else do
    let encryptedDataSize := UInt64.ofNat data.length - .ofNat nonceLen - .ofNat tagLen
    let nonce ← slice data 0 nonceLen
    let encryptedData ← slice data nonceLen encryptedDataSize.toNat
    let tag ← slice data (data.length - tagLen) tagLen
    match fault with
    | some code => return .error (.filehopz code)
    | none =>
        match P.decrypt c.encryptionKey nonce encryptedData tag with
        | some output => return .ok output
        | none => return .error (.filehopz .cryptoDecryptFailed)

/-- The length that is left for the encrypted bytes does not wrap around. -/
theorem encryptedDataSize_toNat {n : Nat} (hlong : nonceLen + tagLen < n) (hn : n < 2 ^ 64) :
    (UInt64.ofNat n - .ofNat nonceLen - .ofNat tagLen).toNat = n - nonceLen - tagLen := by
  simp only [nonceLen, tagLen] at hlong ⊢
  rw [UInt64.toNat_sub, UInt64.toNat_sub, UInt64.toNat_ofNat_of_lt' hn]
  simp only [UInt64.toNat_ofNat, UInt64.reduceOfNat]
  omega

/-- **No range leaves the input**, whatever its length. -/
theorem decryptSlices_eq (fault : Option ErrorCode) (c : CryptoContext P) {data : Bytes}
    (hlen : data.length < 2 ^ 64) :
    c.decryptSlices fault data = some (c.decryptData fault data) := by
  unfold decryptSlices decryptData
  by_cases hready : c.isReady = false
  · rw [if_pos hready, if_pos hready]
  by_cases hshort : data.length ≤ nonceLen + tagLen
  · rw [if_neg hready, if_neg hready, if_pos hshort, if_pos hshort]
  have hlong : nonceLen + tagLen < data.length := Nat.lt_of_not_le hshort
  have htag : (data.drop (data.length - tagLen)).take tagLen = data.drop (data.length - tagLen) := by
    apply List.take_of_length_le
    rw [List.length_drop]
    omega
  rw [if_neg hready, if_neg hready, if_neg hshort, if_neg hshort]
  dsimp only
  rw [encryptedDataSize_toNat hlong hlen, slice_of_le (by omega), slice_of_le (by omega),
    slice_of_le (by omega), htag]
  cases fault with
  | some code => rfl
  | none =>
      simp only [Option.bind_eq_bind, Option.bind_some, List.drop_zero]
      split <;> simp_all

/-- An input with no room for an encrypted byte is refused before it is cut. -/
theorem decryptSlices_short (fault : Option ErrorCode) (c : CryptoContext P) {data : Bytes}
    (hshort : data.length ≤ nonceLen + tagLen) :
    ∃ ec, c.decryptSlices fault data = some (.error ec) := by
  unfold decryptSlices
  by_cases hready : c.isReady = false
  · exact ⟨_, if_pos hready⟩
  · exact ⟨_, (if_neg hready).trans (if_pos hshort)⟩

/-! ## The life of a context -/

/-- A context that has been initialised at most once, with the key pair that was generated
and the peer's key that was installed last. -/
inductive Held : Option P.PrivateKey → Option Bytes → CryptoContext P → Prop
  | fresh : Held none none {}
  | init {c c' : CryptoContext P} {generated : P.PrivateKey} :
      Held none none c → c.init none generated = (none, c') → Held (some generated) none c'
  | set {c c' : CryptoContext P} {key : Option P.PrivateKey} {installed : Option Bytes}
      {fault : Option ErrorCode} {peer : Bytes} :
      Held key installed c → c.setPeerPublicKey fault peer = (none, c') →
      Held key (some peer) c'
  | refused {c c' : CryptoContext P} {key : Option P.PrivateKey} {installed : Option Bytes}
      {fault : Option ErrorCode} {peer : Bytes} {ec : Error} :
      Held key installed c → c.setPeerPublicKey fault peer = (some ec, c') → Held key none c'

namespace Held
variable {c : CryptoContext P} {key : Option P.PrivateKey} {installed : Option Bytes}

/-- The own key pair is the one that was generated. -/
theorem own (h : Held key installed c) :
    c.keyHandle = key ∧ ∀ k, key = some k → c.ownPublicKey = P.publicKey k := by
  induction h with
  | fresh => exact ⟨rfl, fun k hk => by cases hk⟩
  | init _ hi =>
      obtain rfl := (Prod.mk.inj hi).2
      refine ⟨rfl, fun k hk => ?_⟩
      obtain rfl := Option.some.inj hk
      rfl
  | @set c c' key installed fault peer _ hs ih =>
      obtain ⟨hhandle, hown, -⟩ := keyHandle_setPeerPublicKey hs
      rw [hhandle, hown]
      exact ih
  | @refused c c' key installed fault peer ec _ hs ih =>
      obtain ⟨hhandle, hown, -⟩ := keyHandle_setPeerPublicKey hs
      rw [hhandle, hown]
      exact ih

/-- The encryption key belongs to the own key pair and the installed key. -/
theorem derived (h : Held key installed c) {k : P.PrivateKey} {peer : Bytes}
    (hk : key = some k) (hp : installed = some peer) :
    ∃ sharedSecret, P.derive k peer = some sharedSecret ∧ c.isReady = true ∧
      c.encryptionKey = P.hkdf sharedSecret (salt (P.publicKey k) peer) keyPurposeLabel := by
  cases h with
  | fresh => cases hp
  | init _ _ => cases hp
  | refused _ _ => cases hp
  | @set c₀ _ _ _ _ _ h₀ hs =>
      obtain rfl := Option.some.inj hp
      obtain ⟨sharedSecret, hsecret, hready, hkey⟩ := setPeerPublicKey_ok hs
      rw [h₀.own.1, hk, Option.bind_some] at hsecret
      rw [h₀.own.2 k hk] at hkey
      exact ⟨sharedSecret, hsecret, hready, hkey⟩

end Held

/-! ## Agreement -/

/-- What `c` encrypts, `d` decrypts. -/
def Opens (c d : CryptoContext P) : Prop :=
  ∀ nonce data, data ≠ [] → data.length < 2 ^ 31 →
    (∃ out, c.encryptData none nonce data = .ok out) ∧
      ∀ fault out, c.encryptData fault nonce data = .ok out →
        out.length = data.length + nonceLen + tagLen ∧ d.decryptSlices none out = some (.ok data)

theorem opens_of_agree (hP : P.Lawful) {c d : CryptoContext P} (hc : c.isReady = true)
    (hd : d.isReady = true) (hkey : c.encryptionKey = d.encryptionKey) : Opens c d := by
  intro nonce data hne hlen
  refine ⟨⟨frame P c.encryptionKey nonce data, ?_⟩, fun fault out hout => ?_⟩
  · unfold encryptData
    rw [if_neg (by simp [hc])]
  · have hframe := (encryptData_ok hout).2
    have hlength : out.length = data.length + nonceLen + tagLen := by
      rw [hframe, length_frame, Nat.add_assoc]
    have hroom : out.length < 2 ^ 64 := by
      rw [hlength]
      simp only [nonceLen, tagLen]
      omega
    refine ⟨hlength, ?_⟩
    rw [decryptSlices_eq none d hroom, hframe, hkey, decryptData_frame hP hd nonce hne]

/-- **Two contexts that have installed each other's public keys** hold one encryption key and
decrypt what the other encrypts. -/
theorem contexts_agree (hP : P.Lawful) {a b : P.PrivateKey} {c d : CryptoContext P}
    (hc : Held (some a) (some d.ownPublicKey) c) (hd : Held (some b) (some c.ownPublicKey) d) :
    c.encryptionKey = d.encryptionKey ∧ Opens c d ∧ Opens d c ∧
      ∀ (e : CryptoContext P) (fault : Option ErrorCode) (data : Bytes),
        data.length ≤ nonceLen + tagLen → ∃ ec, e.decryptSlices fault data = some (.error ec) := by
  obtain ⟨s, hs, hcr, hck⟩ := hc.derived rfl rfl
  obtain ⟨s', hs', hdr, hdk⟩ := hd.derived rfl rfl
  have hcown := hc.own.2 a rfl
  have hdown := hd.own.2 b rfl
  have hsecret : s = s' := by
    apply Option.some.inj
    rw [← hs, ← hs', hcown, hdown, hP.derive_comm]
  have hkey : c.encryptionKey = d.encryptionKey := by
    rw [hck, hdk, hsecret, hcown, hdown, salt_comm]
  exact ⟨hkey, opens_of_agree hP hcr hdr hkey, opens_of_agree hP hdr hcr hkey.symm,
    fun e fault data => decryptSlices_short fault e⟩

/-- A context of the small primitives with the key pair of `own` that has installed the key of
`peer`. -/
def paired (own peer : UInt8) : CryptoContext Primitives.additive :=
  ((({} : CryptoContext Primitives.additive).init none own).2.setPeerPublicKey none
    (Primitives.additive.publicKey peer)).2

theorem held_paired (own peer : UInt8) :
    Held (some own) (some (Primitives.additive.publicKey peer)) (paired own peer) :=
  .set (.init .fresh rfl) (rfl : CryptoContext.setPeerPublicKey none _ _ = _)

theorem contexts_agree_paired :
    (paired 3 5).encryptionKey = (paired 5 3).encryptionKey ∧ Opens (paired 3 5) (paired 5 3) ∧
      Opens (paired 5 3) (paired 3 5) ∧
      ∀ (e : CryptoContext Primitives.additive) (fault : Option ErrorCode) (data : Bytes),
        data.length ≤ nonceLen + tagLen → ∃ ec, e.decryptSlices fault data = some (.error ec) :=
  contexts_agree Primitives.additive_lawful (held_paired 3 5) (held_paired 5 3)

end CryptoContext
end FileHopZ
