import Kagenti.Go.StringMap
import Kagenti.Operator.Signature.Jws

/-!
`X5CProvider` in `x5c.go`: the verification of a card's signatures by the certificate chains in
their protected headers. Metrics, logs and the texts of standard library errors are left out. The
X.509 primitives and `url.Parse` are parameters.
-/

namespace Kagenti.Operator.Signature

open Go

structure SanUri where
  scheme : String
  text : String
  deriving DecidableEq

structure X509 (Key Cert : Type) extends Crypto Key where
  parseCertificate : Bytes → Option Cert
  uris : Cert → List SanUri
  publicKey : Cert → Key
  notBefore : Cert → Int
  notAfter : Cert → Int
  -- `Certificate.Verify` with roots, intermediates and the current time, for any key usage
  verify : List Cert → List Cert → Int → Cert → Except String Unit
  pemBlocks : String → List (String × Bytes)
  urlHost : String → Option String
  sha256Hex : String → String

/-- `%q` of a text in which nothing needs an escape. -/
def quoted (s : String) : String := "\"" ++ s ++ "\""

structure ProviderConfig where
  configMapName : String
  configMapNS : String
  configMapKey : String
  refreshInterval : Int

structure X5CProvider (Cert : Type) where
  trustBundle : Option (List Cert)
  lastBundleLoad : Int
  bundleHash : String

section Provider

variable {Key Cert : Type} (x509 : X509 Key Cert)

/-! The trust bundle -/

def parsePEMBundle (raw : String) : List Cert :=
  (x509.pemBlocks raw).filterMap fun block =>
    if block.1 = "CERTIFICATE" then x509.parseCertificate block.2 else none

structure BundleKey where
  use : String
  x5c : Slice String

def BundleKey.into : Into BundleKey :=
  Into.struct
    [("use", Into.field BundleKey.use (fun k v => { k with use := v }) Into.string),
      ("x5c", Into.field BundleKey.x5c (fun k v => { k with x5c := v })
        (Into.slice "" Into.string))]

def bundleInto : Into (Slice BundleKey) :=
  Into.struct [("keys", Into.field id (fun _ keys => keys)
    (Into.slice (⟨"", .nil⟩ : BundleKey) BundleKey.into))]

def parseSPIFFEJSONBundle (raw : String) : Except String (List Cert) :=
  match unmarshal bundleInto .nil (bytes raw) with
  | none => .error "failed to parse SPIFFE bundle JSON"
  | some keys => do
      let certs ← ((keys.toList.filter fun k => k.use = "x509-svid").flatMap
        fun k => k.x5c.toList).mapM fun b64 =>
          match Base64.stdDecode (bytes b64) with
          | none => .error "failed to decode x5c cert from SPIFFE bundle"
          | some der =>
            match x509.parseCertificate der with
            | none => .error "failed to parse certificate from SPIFFE bundle"
            | some cert => .ok cert
      return certs

def parseBundle (raw : String) : Except String (List Cert × String) :=
  if (raw.splitOn "-----BEGIN CERTIFICATE-----").length > 1 then
    .ok (parsePEMBundle x509 raw, "PEM")
  else (parseSPIFFEJSONBundle x509 raw).map fun certs => (certs, "SPIFFE JSON")

/-- `configMap` is the answer to the read of the ConfigMap. -/
def refreshTrustBundle (config : ProviderConfig) (now : Int)
    (configMap : Except String StringMap) (p : X5CProvider Cert) :
    Except String (X5CProvider Cert) :=
  match configMap with
  | .error e =>
    .error ("failed to get trust bundle configmap " ++ config.configMapNS ++ "/" ++
      config.configMapName ++ ": " ++ e)
  | .ok data =>
    let raw := data.value config.configMapKey
    if raw = "" then
      .error ("trust bundle configmap key " ++ quoted config.configMapKey ++ " not found or empty")
    else
      match parseBundle x509 raw with
      | .error e => .error e
      | .ok ([], format) =>
        .error ("trust bundle contains no certificates (format: " ++ format ++ ")")
      | .ok (pool, _) =>
        .ok { p with
          trustBundle := some pool, lastBundleLoad := now, bundleHash := x509.sha256Hex raw }

/-- A failed refresh of a bundle that is there keeps it. -/
def maybeRefreshTrustBundle (config : ProviderConfig) (now : Int)
    (configMap : Except String StringMap) (p : X5CProvider Cert) :
    Except String (X5CProvider Cert) :=
  match p.trustBundle with
  | none =>
    match refreshTrustBundle x509 config now configMap p with
    | .error e => .error ("initial trust bundle load failed: " ++ e)
    | .ok p' => .ok p'
  | some _ =>
    if now - p.lastBundleLoad < config.refreshInterval then .ok p
    else
      match refreshTrustBundle x509 config now configMap p with
      | .error _ => .ok p
      | .ok p' => .ok p'

/-! One signature -/

def parseX5CCerts (x5c : List String) : Option (List Cert) :=
  x5c.mapM fun b64 => (Base64.stdDecode (bytes b64)).bind x509.parseCertificate

def validateChain (roots : List Cert) (leaf : Cert) (intermediates : List Cert) :
    Except String Unit :=
  if intermediates.length + 1 > 3 then
    .error ("certificate chain too deep: " ++ toString (intermediates.length + 1) ++ " (max 3)")
  else
    match x509.verify roots intermediates (x509.notBefore leaf + 1000000000) leaf with
    | .error e => .error ("chain verification failed: " ++ e)
    | .ok () => .ok ()

def spiffeUris (leaf : Cert) : List String :=
  ((x509.uris leaf).filter fun uri => uri.scheme = "spiffe").map SanUri.text

def extractSpiffeIDFromCert (leaf : Cert) : Except String String :=
  match spiffeUris x509 leaf with
  | [] => .error ("no spiffe:// URI in leaf certificate SANs (found " ++
      toString (x509.uris leaf).length ++ " URIs total)")
  | [spiffeID] =>
    match x509.urlHost spiffeID with
    | none => .error ("malformed SPIFFE ID URI " ++ quoted spiffeID)
    | some host =>
      if host = "" then .error ("SPIFFE ID " ++ quoted spiffeID ++ " has empty trust domain")
      else .ok spiffeID
  | ids => .error ("multiple spiffe:// URIs in leaf certificate SANs (expected exactly 1, found " ++
      toString ids.length ++ ")")

def notVerified (details : String) : VerificationResult := ⟨false, "", "", details, none⟩

/-- The loop of `VerifySignature`. An entry without a chain that can be parsed, with a key that
cannot be marshalled, or with a JWS that does not verify is passed over; a chain or a subject
alternative name that is not valid ends the loop. -/
def verifyEach (roots : List Cert) (cardData : AgentCardData) :
    List AgentCardSignature → VerificationResult
  | [] => notVerified "No signature verified via x5c chain validation"
  | sig :: rest =>
    match decodeProtectedHeader sig.protectedHeader with
    | none => verifyEach roots cardData rest
    | some header =>
      if header.x5c = [] then verifyEach roots cardData rest
      else
        match parseX5CCerts x509 header.x5c with
        | none => verifyEach roots cardData rest
        | some [] => verifyEach roots cardData rest
        | some (leaf :: intermediates) =>
          match validateChain x509 roots leaf intermediates with
          | .error e => notVerified ("x5c chain validation failed: " ++ e)
          | .ok () =>
            match extractSpiffeIDFromCert x509 leaf with
            | .error e => notVerified ("leaf certificate SAN validation failed: " ++ e)
            | .ok spiffeID =>
              match marshalPublicKeyToPEM x509.toCrypto (x509.publicKey leaf) with
              | none => verifyEach roots cardData rest
              | some publicKeyPEM =>
                match verifyJWS x509.toCrypto cardData sig publicKeyPEM with
                | none => verifyEach roots cardData rest
                | some result =>
                  if result.verified then
                    { result with spiffeID := spiffeID, leafNotAfter := some (x509.notAfter leaf) }
                  else verifyEach roots cardData rest

/-- `VerifySignature`, with the provider it leaves. A provider that has been refreshed has a
bundle; without one, every verification fails. -/
def verifySignature (config : ProviderConfig) (now : Int) (configMap : Except String StringMap)
    (p : X5CProvider Cert) (cardData : AgentCardData) (signatures : List AgentCardSignature) :
    VerificationResult × X5CProvider Cert :=
  match maybeRefreshTrustBundle x509 config now configMap p with
  | .error e => (notVerified ("trust bundle unavailable: " ++ e), p)
  | .ok p' => (verifyEach x509 (p'.trustBundle.getD []) cardData signatures, p')

end Provider

end Kagenti.Operator.Signature
