import Kagenti.Go.Base64
import Kagenti.Operator.Signature.Canonical

/-!
`VerifyJWS` in `verifier.go`: the verification of one JWS signature under a public key. The
cryptographic primitives and the encodings of keys are parameters; of these, only that a key is
read back from what was written is assumed.
-/

namespace Kagenti.Operator.Signature

open Go

inductive Hash where
  | sha256
  | sha384
  | sha512
  deriving DecidableEq

structure Curve where
  name : String
  bitSize : Nat
  deriving DecidableEq

inductive KeyKind where
  | rsa (bitLen : Nat)
  | ecdsa (curve : Curve)
  | other
  deriving DecidableEq

structure Crypto (Key : Type) where
  kind : Key → KeyKind
  digest : Hash → Bytes → Bytes
  -- `rsa.VerifyPSS` with a salt as long as the hash, and `rsa.VerifyPKCS1v15`
  verifyPSS : Key → Hash → Bytes → Bytes → Bool
  verifyPKCS1v15 : Key → Hash → Bytes → Bytes → Bool
  -- `ecdsa.Verify` and `ecdsa.VerifyASN1`
  ecdsaVerify : Key → Bytes → Nat → Nat → Bool
  ecdsaVerifyASN1 : Key → Bytes → Bytes → Bool
  marshalPKIX : Key → Option Bytes
  parsePKIX : Bytes → Option Key
  parsePKCS1 : Bytes → Option Key
  pemEncode : Bytes → Bytes
  pemDecode : Bytes → Option Bytes
  parsePKIX_marshalPKIX : ∀ key der, marshalPKIX key = some der → parsePKIX der = some key
  pemDecode_pemEncode : ∀ der, pemDecode (pemEncode der) = some der

structure ProtectedHeader where
  algorithm : String
  type : String
  keyID : String
  x5c : List String
  deriving DecidableEq

structure HeaderFields where
  algorithm : String
  type : String
  keyID : String
  x5c : Slice String

def HeaderFields.into : Into HeaderFields :=
  Into.struct
    [("alg", Into.field HeaderFields.algorithm (fun h v => { h with algorithm := v }) Into.string),
      ("typ", Into.field HeaderFields.type (fun h v => { h with type := v }) Into.string),
      ("kid", Into.field HeaderFields.keyID (fun h v => { h with keyID := v }) Into.string),
      ("x5c", Into.field HeaderFields.x5c (fun h v => { h with x5c := v })
        (Into.slice "" Into.string))]

def decodeProtectedHeader (protectedHeader : String) : Option ProtectedHeader := do
  let headerJSON ← Base64.rawURLDecode (bytes protectedHeader)
  let fields ← unmarshal HeaderFields.into ⟨"", "", "", .nil⟩ headerJSON
  return ⟨fields.algorithm, fields.type, fields.keyID, fields.x5c.toList⟩

def supportedAlgorithms : List String :=
  ["RS256", "RS384", "RS512", "PS256", "PS384", "PS512", "ES256", "ES384", "ES512"]

def validateAlgorithm (alg : String) : Bool :=
  alg ≠ "" && alg ≠ "none" && supportedAlgorithms.contains alg

def isRSAAlgorithm (alg : String) : Bool :=
  ["RS256", "RS384", "RS512", "PS256", "PS384", "PS512"].contains alg

def isECDSAAlgorithm (alg : String) : Bool := ["ES256", "ES384", "ES512"].contains alg

def isPSSAlgorithm (alg : String) : Bool := ["PS256", "PS384", "PS512"].contains alg

def hashForAlgorithm (alg : String) : Option Hash :=
  if ["RS256", "PS256", "ES256"].contains alg then some .sha256
  else if ["RS384", "PS384", "ES384"].contains alg then some .sha384
  else if ["RS512", "PS512", "ES512"].contains alg then some .sha512
  else none

def validateECDSACurve (curve : Curve) (alg : String) : Bool :=
  if alg = "ES256" then curve.name = "P-256"
  else if alg = "ES384" then curve.name = "P-384"
  else if alg = "ES512" then curve.name = "P-521"
  else false

/-- `big.Int.SetBytes`. -/
def natOfBytes (b : Bytes) : Nat := b.foldl (fun n x => n * 256 + x.toNat) 0

structure VerificationResult where
  verified : Bool
  keyID : String
  spiffeID : String
  details : String
  leafNotAfter : Option Int
  deriving DecidableEq

def jwsResult (header : ProtectedHeader) (verified : Bool) : VerificationResult :=
  let details :=
    if verified then
      "JWS signature verified successfully (alg=" ++ header.algorithm ++ ", kid=" ++ header.keyID ++
        ")"
    else "JWS signature verification failed"
  ⟨verified, header.keyID, "", details, none⟩

section Verify

variable {Key : Type} (crypto : Crypto Key)

def verifyECDSARaw (key : Key) (curve : Curve) (hash sig : Bytes) : Bool :=
  let keySize := (curve.bitSize + 7) / 8
  if sig.length ≠ 2 * keySize then false
  else crypto.ecdsaVerify key hash (natOfBytes (sig.take keySize)) (natOfBytes (sig.drop keySize))

def marshalPublicKeyToPEM (key : Key) : Option Bytes := (crypto.marshalPKIX key).map crypto.pemEncode

/-- PKIX first, then PKCS#1. -/
def parsePublicKey (der : Bytes) : Option Key := (crypto.parsePKIX der).or (crypto.parsePKCS1 der)

/-- The end of `VerifyJWS`: the signature under a key whose type has to match the algorithm.
Nothing where it returns an error. -/
def verifyWithKey (key : Key) (alg : String) (hashFunc : Hash) (signingInput sig : Bytes) :
    Option Bool :=
  let hashed := crypto.digest hashFunc signingInput
  match crypto.kind key with
  | .rsa _ =>
    if !isRSAAlgorithm alg then none
    else if isPSSAlgorithm alg then some (crypto.verifyPSS key hashFunc hashed sig)
    else some (crypto.verifyPKCS1v15 key hashFunc hashed sig)
  | .ecdsa curve =>
    if !isECDSAAlgorithm alg then none
    else if !validateECDSACurve curve alg then none
    else some (verifyECDSARaw crypto key curve hashed sig || crypto.ecdsaVerifyASN1 key hashed sig)
  | .other => none

/-- The RSA keys that `VerifyJWS` refuses. -/
def keyTooSmall (key : Key) : Bool :=
  match crypto.kind key with
  | .rsa bitLen => bitLen < 2048
  | _ => false

/-- `VerifyJWS` on a signature that is there. Nothing where it returns an error: the callers do
not look at the result then. -/
def verifyJWS (cardData : AgentCardData) (sig : AgentCardSignature) (publicKeyPEM : Bytes) :
    Option VerificationResult := do
  let header ← decodeProtectedHeader sig.protectedHeader
  guard (validateAlgorithm header.algorithm)
  let der ← crypto.pemDecode publicKeyPEM
  let key ← parsePublicKey crypto der
  guard !(keyTooSmall crypto key)
  let payload ← createCanonicalCardJSON cardData
  let signingInput := bytes sig.protectedHeader ++ 0x2E :: Base64.rawURLEncode payload
  let hashFunc ← hashForAlgorithm header.algorithm
  let signatureBytes ← Base64.rawURLDecode (bytes sig.signature)
  let verified ← verifyWithKey crypto key header.algorithm hashFunc signingInput signatureBytes
  return jwsResult header verified

structure JwsVerifies (cardData : AgentCardData) (sig : AgentCardSignature)
    (header : ProtectedHeader) (key : Key) : Prop where
  algorithm : validateAlgorithm header.algorithm = true
  keySize : keyTooSmall crypto key = false
  signature : ∃ payload hashFunc signatureBytes,
    createCanonicalCardJSON cardData = some payload ∧
      hashForAlgorithm header.algorithm = some hashFunc ∧
      Base64.rawURLDecode (bytes sig.signature) = some signatureBytes ∧
      verifyWithKey crypto key header.algorithm hashFunc
        (bytes sig.protectedHeader ++ 0x2E :: Base64.rawURLEncode payload) signatureBytes =
          some true

variable {crypto} {key : Key} {pem : Bytes}

theorem parsePublicKey_marshal (h : marshalPublicKeyToPEM crypto key = some pem) :
    (crypto.pemDecode pem).bind (parsePublicKey crypto) = some key := by
  rw [marshalPublicKeyToPEM, Option.map_eq_some_iff] at h
  obtain ⟨der, hder, rfl⟩ := h
  rw [crypto.pemDecode_pemEncode, Option.bind_some, parsePublicKey,
    crypto.parsePKIX_marshalPKIX key der hder]
  rfl

theorem verifyJWS_verified_iff {cardData : AgentCardData} {sig : AgentCardSignature}
    {header : ProtectedHeader} (hheader : decodeProtectedHeader sig.protectedHeader = some header)
    (hpem : marshalPublicKeyToPEM crypto key = some pem) :
    (∃ result, verifyJWS crypto cardData sig pem = some result ∧ result.verified = true) ↔
      JwsVerifies crypto cardData sig header key := by
  have hkey := parsePublicKey_marshal hpem
  rw [Option.bind_eq_some_iff] at hkey
  obtain ⟨der, hder, hkey⟩ := hkey
  constructor
  · rintro ⟨result, hresult, hverified⟩
    simp only [verifyJWS, hheader, hder, hkey, Option.bind_eq_bind, Option.bind_some,
      Option.bind_eq_some_iff, Option.guard_eq_some', Option.pure_def, Option.some.injEq] at hresult
    obtain ⟨_, halg, _, hsize, payload, hpayload, hashFunc, hhash, signatureBytes, hsig, verified,
      hverify, rfl⟩ := hresult
    obtain rfl : verified = true := hverified
    exact ⟨halg, by simpa using hsize, payload, hashFunc, signatureBytes, hpayload, hhash, hsig,
      hverify⟩
  · rintro ⟨halg, hsize, payload, hashFunc, signatureBytes, hpayload, hhash, hsig, hverify⟩
    refine ⟨jwsResult header true, ?_, rfl⟩
    simp only [verifyJWS, hheader, hder, hkey, hpayload, hhash, hsig, hverify, halg, hsize,
      Option.bind_eq_bind, Option.bind_some, guard_true, Option.pure_def, Bool.not_false]

end Verify

end Kagenti.Operator.Signature
