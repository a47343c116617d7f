import Mathlib.Data.List.Perm.Basic
import Kagenti.Operator.Signature.X5C

/-!
The verdict of `VerifySignature` on lists of signatures, against the contract of the provider
interface: success if at least one signature verifies.
-/

namespace Kagenti.Operator.Signature

open Go

variable {Key Cert : Type} {x509 : X509 Key Cert} {roots : List Cert} {cardData : AgentCardData}

inductive Judgement where
  | passed
  | rejected (details : String)
  | verified (result : VerificationResult)

/-- The certificates of an entry whose chain can be parsed. -/
structure HasChain (x509 : X509 Key Cert) (sig : AgentCardSignature) (header : ProtectedHeader)
    (leaf : Cert) (intermediates : List Cert) : Prop where
  decoded : decodeProtectedHeader sig.protectedHeader = some header
  certs : parseX5CCerts x509 header.x5c = some (leaf :: intermediates)

/-- The chain is short enough and valid against the roots. -/
structure ChainValid (x509 : X509 Key Cert) (roots : List Cert) (leaf : Cert)
    (intermediates : List Cert) : Prop where
  depth : intermediates.length ≤ 2
  verifies : x509.verify roots intermediates (x509.notBefore leaf + 1000000000) leaf = .ok ()

structure HasSpiffeID (x509 : X509 Key Cert) (leaf : Cert) (spiffeID : String) : Prop where
  single : spiffeUris x509 leaf = [spiffeID]
  trustDomain : ∃ host, x509.urlHost spiffeID = some host ∧ host ≠ ""

def ValidEntry (x509 : X509 Key Cert) (roots : List Cert) (cardData : AgentCardData)
    (sig : AgentCardSignature) (spiffeID : String) : Prop :=
  ∃ header leaf intermediates, HasChain x509 sig header leaf intermediates ∧
    ChainValid x509 roots leaf intermediates ∧ HasSpiffeID x509 leaf spiffeID ∧
    (x509.marshalPKIX (x509.publicKey leaf)).isSome ∧
    JwsVerifies x509.toCrypto cardData sig header (x509.publicKey leaf)

def RejectedEntry (x509 : X509 Key Cert) (roots : List Cert) (sig : AgentCardSignature) : Prop :=
  ∃ header leaf intermediates, HasChain x509 sig header leaf intermediates ∧
    (¬ ChainValid x509 roots leaf intermediates ∨ ¬ ∃ spiffeID, HasSpiffeID x509 leaf spiffeID)

/-! The checks of an entry -/

variable {leaf : Cert} {intermediates : List Cert}

theorem validateChain_ok_iff : validateChain x509 roots leaf intermediates = .ok () ↔
      ChainValid x509 roots leaf intermediates := by
  unfold validateChain
  split
  next hdeep => exact iff_of_false nofun fun h => absurd h.depth (by omega)
  next hshort =>
    split
    next e hverify => exact iff_of_false nofun fun h => nomatch hverify.symm.trans h.verifies
    next hverify => exact ⟨fun _ => ⟨by omega, hverify⟩, fun _ => rfl⟩

theorem extractSpiffeID_ok_iff {spiffeID : String} :
    extractSpiffeIDFromCert x509 leaf = .ok spiffeID ↔ HasSpiffeID x509 leaf spiffeID := by
  constructor
  · fun_cases extractSpiffeIDFromCert with
    | case4 id hone host hurl hne =>
      rintro ⟨⟩
      exact ⟨hone, host, hurl, hne⟩
    | _ => exact nofun
  · rintro ⟨hone, host, hurl, hne⟩
    simp [extractSpiffeIDFromCert, hone, hurl, hne]

variable {header : ProtectedHeader} {sig : AgentCardSignature}

theorem HasChain.unique {header' : ProtectedHeader} {leaf' : Cert} {intermediates' : List Cert}
    (h : HasChain x509 sig header leaf intermediates)
    (h' : HasChain x509 sig header' leaf' intermediates') :
    header' = header ∧ leaf' = leaf ∧ intermediates' = intermediates := by
  obtain rfl := Option.some.inj (h.decoded.symm.trans h'.decoded)
  have hcerts := List.cons.inj (Option.some.inj (h'.certs.symm.trans h.certs))
  exact ⟨rfl, hcerts.1, hcerts.2⟩

variable {id : String}

theorem ValidEntry.unique {id' : String} (h : ValidEntry x509 roots cardData sig id)
    (h' : ValidEntry x509 roots cardData sig id') : id = id' := by
  obtain ⟨header, leaf, intermediates, hchain, -, hid, -⟩ := h
  obtain ⟨header', leaf', intermediates', hchain', -, hid', -⟩ := h'
  obtain ⟨rfl, rfl, rfl⟩ := hchain.unique hchain'
  exact (List.cons.inj (hid.single.symm.trans hid'.single)).1

theorem HasChain.not_rejected (hchain : HasChain x509 sig header leaf intermediates)
    (hvalid : ChainValid x509 roots leaf intermediates) (hid : HasSpiffeID x509 leaf id) :
    ¬ RejectedEntry x509 roots sig := by
  rintro ⟨header', leaf', intermediates', hchain', hfails⟩
  obtain ⟨rfl, rfl, rfl⟩ := hchain.unique hchain'
  rcases hfails with hinvalid | hnone
  · exact hinvalid hvalid
  · exact hnone ⟨id, hid⟩

theorem ValidEntry.not_rejected (h : ValidEntry x509 roots cardData sig id) :
    ¬ RejectedEntry x509 roots sig := by
  obtain ⟨header, leaf, intermediates, hchain, hvalid, hid, -⟩ := h
  exact hchain.not_rejected hvalid hid

/-! One entry -/

/-- The body of the loop of `VerifySignature` for an entry with a chain. -/
def judgeChain (x509 : X509 Key Cert) (roots : List Cert) (cardData : AgentCardData)
    (sig : AgentCardSignature) (leaf : Cert) (intermediates : List Cert) : Judgement :=
  match validateChain x509 roots leaf intermediates with
  | .error e => .rejected ("x5c chain validation failed: " ++ e)
  | .ok () =>
    match extractSpiffeIDFromCert x509 leaf with
    | .error e => .rejected ("leaf certificate SAN validation failed: " ++ e)
    | .ok spiffeID =>
      match marshalPublicKeyToPEM x509.toCrypto (x509.publicKey leaf) with
      | none => .passed
      | some publicKeyPEM =>
        match verifyJWS x509.toCrypto cardData sig publicKeyPEM with
        | none => .passed
        | some result =>
          if result.verified then
            .verified { result with
              spiffeID := spiffeID, leafNotAfter := some (x509.notAfter leaf) }
          else .passed

def judge (x509 : X509 Key Cert) (roots : List Cert) (cardData : AgentCardData)
    (sig : AgentCardSignature) : Judgement :=
  match decodeProtectedHeader sig.protectedHeader with
  | none => .passed
  | some header =>
    if header.x5c = [] then .passed
    else
      match parseX5CCerts x509 header.x5c with
      | none => .passed
      | some [] => .passed
      | some (leaf :: intermediates) =>
        judgeChain x509 roots cardData sig leaf intermediates

/-- The first entry that is not passed over decides. -/
theorem verifyEach_cons (sig : AgentCardSignature) (rest : List AgentCardSignature) :
    verifyEach x509 roots cardData (sig :: rest) =
      match judge x509 roots cardData sig with
      | .passed => verifyEach x509 roots cardData rest
      | .rejected details => notVerified details
      | .verified result => result := by
  rw [verifyEach, judge]
  unfold judgeChain
  repeat' split
  all_goals first
    | rfl
    | simp_all

inductive JudgedAs (x509 : X509 Key Cert) (roots : List Cert) (cardData : AgentCardData)
    (sig : AgentCardSignature) : Judgement → Prop where
  | passed (hvalid : ∀ id, ¬ ValidEntry x509 roots cardData sig id)
      (hrejected : ¬ RejectedEntry x509 roots sig) : JudgedAs x509 roots cardData sig .passed
  | rejected {details : String} (h : RejectedEntry x509 roots sig) :
      JudgedAs x509 roots cardData sig (.rejected details)
  | verified {result : VerificationResult} (hverified : result.verified = true)
      (h : ValidEntry x509 roots cardData sig result.spiffeID) :
      JudgedAs x509 roots cardData sig (.verified result)

theorem JudgedAs.of_no_chain
    (h : ∀ header leaf intermediates, ¬ HasChain x509 sig header leaf intermediates) :
    JudgedAs x509 roots cardData sig .passed :=
  .passed (fun _ ⟨header, leaf, intermediates, hchain, _⟩ => h header leaf intermediates hchain)
    fun ⟨header, leaf, intermediates, hchain, _⟩ => h header leaf intermediates hchain

theorem JudgedAs.of_no_jws (hchain : HasChain x509 sig header leaf intermediates)
    (hvalid : ChainValid x509 roots leaf intermediates) (hid : HasSpiffeID x509 leaf id)
    (hjws : ¬ ((x509.marshalPKIX (x509.publicKey leaf)).isSome ∧
      JwsVerifies x509.toCrypto cardData sig header (x509.publicKey leaf))) :
    JudgedAs x509 roots cardData sig .passed := by
  refine .passed ?_ (hchain.not_rejected hvalid hid)
  rintro id' ⟨header', leaf', intermediates', hchain', -, -, hverifies⟩
  obtain ⟨rfl, rfl, rfl⟩ := hchain.unique hchain'
  exact hjws hverifies

theorem judgeChain_spec (hchain : HasChain x509 sig header leaf intermediates) :
    JudgedAs x509 roots cardData sig (judgeChain x509 roots cardData sig leaf intermediates) := by
  unfold judgeChain
  split
  next e hinvalid =>
    refine .rejected ⟨header, leaf, intermediates, hchain, .inl fun hvalid => ?_⟩
    cases hinvalid.symm.trans (validateChain_ok_iff.mpr hvalid)
  rename_i hvalidates
  have hvalid := validateChain_ok_iff.mp hvalidates
  split
  next e hinvalid =>
    refine .rejected ⟨header, leaf, intermediates, hchain, .inr fun ⟨id, hid⟩ => ?_⟩
    cases hinvalid.symm.trans (extractSpiffeID_ok_iff.mpr hid)
  rename_i spiffeID hextract
  have hid := extractSpiffeID_ok_iff.mp hextract
  split
  next hmarshal =>
    refine .of_no_jws hchain hvalid hid fun hjws => ?_
    rw [marshalPublicKeyToPEM, Option.map_eq_none_iff] at hmarshal
    rw [hmarshal] at hjws
    cases hjws.1
  rename_i publicKeyPEM hmarshal
  have hkey : (x509.marshalPKIX (x509.publicKey leaf)).isSome := by
    rw [marshalPublicKeyToPEM, Option.map_eq_some_iff] at hmarshal
    obtain ⟨der, hder, -⟩ := hmarshal
    rw [hder]
    rfl
  have hjws : (∃ result, verifyJWS x509.toCrypto cardData sig publicKeyPEM = some result ∧
      result.verified = true) ↔
        JwsVerifies x509.toCrypto cardData sig header (x509.publicKey leaf) :=
    verifyJWS_verified_iff hchain.decoded hmarshal
  split
  next hverify =>
    refine .of_no_jws hchain hvalid hid fun hfull => ?_
    obtain ⟨result, hresult, -⟩ := hjws.mpr hfull.2
    cases hverify.symm.trans hresult
  rename_i result hverify
  split
  next hverified =>
    exact .verified hverified ⟨header, leaf, intermediates, hchain, hvalid, hid, hkey,
      hjws.mp ⟨result, hverify, hverified⟩⟩
  next hnot =>
    refine .of_no_jws hchain hvalid hid fun hfull => ?_
    obtain ⟨result', hresult, hverified⟩ := hjws.mpr hfull.2
    obtain rfl := Option.some.inj (hverify.symm.trans hresult)
    exact hnot hverified

theorem judge_spec (sig : AgentCardSignature) :
    JudgedAs x509 roots cardData sig (judge x509 roots cardData sig) := by
  fun_cases judge with
  | case5 header hheader _ leaf intermediates hparse => exact judgeChain_spec ⟨hheader, hparse⟩
  | _ =>
    refine .of_no_chain fun header leaf intermediates ⟨hheader, hparse⟩ => ?_
    simp_all [parseX5CCerts]

/-! The list -/

def SomeValid (x509 : X509 Key Cert) (roots : List Cert) (cardData : AgentCardData)
    (sigs : List AgentCardSignature) : Prop :=
  ∃ sig ∈ sigs, ∃ id, ValidEntry x509 roots cardData sig id

variable {sigs : List AgentCardSignature}

theorem exists_valid_of_verified (h : (verifyEach x509 roots cardData sigs).verified = true) :
    ∃ sig ∈ sigs, ValidEntry x509 roots cardData sig
      (verifyEach x509 roots cardData sigs).spiffeID := by
  induction sigs with
  | nil => cases h
  | cons sig rest ih =>
    have hjudged : JudgedAs x509 roots cardData sig _ := judge_spec sig
    rw [verifyEach_cons] at h ⊢
    generalize judge x509 roots cardData sig = judged at hjudged h ⊢
    cases hjudged with
    | passed hinvalid hnot =>
      obtain ⟨sig', hmem, hvalid⟩ := ih h
      exact ⟨sig', List.mem_cons_of_mem sig hmem, hvalid⟩
    | rejected hrejected => cases h
    | verified hverified hvalid => exact ⟨sig, List.mem_cons_self, hvalid⟩

theorem verified_of_someValid (hnone : ∀ sig ∈ sigs, ¬ RejectedEntry x509 roots sig)
    (h : SomeValid x509 roots cardData sigs) :
    (verifyEach x509 roots cardData sigs).verified = true := by
  induction sigs with
  | nil =>
    obtain ⟨sig, hmem, -⟩ := h
    cases hmem
  | cons sig rest ih =>
    have hjudged : JudgedAs x509 roots cardData sig _ := judge_spec sig
    rw [verifyEach_cons]
    generalize judge x509 roots cardData sig = judged at hjudged ⊢
    cases hjudged with
    | passed hinvalid hnot =>
      obtain ⟨sig', hmem, id, hvalid⟩ := h
      rcases List.mem_cons.mp hmem with rfl | hmem
      · exact absurd hvalid (hinvalid id)
      · exact ih (fun s hs => hnone s (List.mem_cons_of_mem sig hs)) ⟨sig', hmem, id, hvalid⟩
    | rejected hrejected => exact absurd hrejected (hnone sig List.mem_cons_self)
    | verified hverified hvalid => exact hverified

/-- A rejected entry at the head ends the loop without success. -/
theorem not_verified_of_rejected_head {rest : List AgentCardSignature}
    (h : RejectedEntry x509 roots sig) :
    (verifyEach x509 roots cardData (sig :: rest)).verified = false := by
  have hjudged : JudgedAs x509 roots cardData sig _ := judge_spec sig
  rw [verifyEach_cons]
  generalize judge x509 roots cardData sig = judged at hjudged ⊢
  cases hjudged with
  | passed hinvalid hnot => exact absurd h hnot
  | rejected hrejected => rfl
  | verified hverified hvalid => exact absurd h hvalid.not_rejected

/-! The contract of the provider -/

def SingleValid (x509 : X509 Key Cert) (roots : List Cert) (cardData : AgentCardData)
    (sigs : List AgentCardSignature) : Prop :=
  ∃ sig, (∃ id, ValidEntry x509 roots cardData sig id) ∧ sig ∈ sigs ∧
    ∀ sig' ∈ sigs, ∀ id, ValidEntry x509 roots cardData sig' id → sig' = sig

/-- The trust bundle that a verification uses, if there is one. -/
def bundleInUse (x509 : X509 Key Cert) (config : ProviderConfig) (now : Int)
    (configMap : Except String StringMap) (p : X5CProvider Cert) : Option (List Cert) :=
  (maybeRefreshTrustBundle x509 config now configMap p).toOption.bind X5CProvider.trustBundle

structure MeetsContract (x509 : X509 Key Cert) (config : ProviderConfig) (now : Int)
    (configMap : Except String StringMap) (p : X5CProvider Cert) (cardData : AgentCardData)
    (sigs : List AgentCardSignature) : Prop where
  verified_iff : (verifySignature x509 config now configMap p cardData sigs).1.verified = true ↔
    ∃ roots, bundleInUse x509 config now configMap p = some roots ∧
      SomeValid x509 roots cardData sigs
  verdict : ∀ sigs', sigs.Perm sigs' →
    (verifySignature x509 config now configMap p cardData sigs').1.verified =
      (verifySignature x509 config now configMap p cardData sigs).1.verified
  spiffeID : ∀ sigs', sigs.Perm sigs' → ∀ roots,
    bundleInUse x509 config now configMap p = some roots → SingleValid x509 roots cardData sigs →
      (verifySignature x509 config now configMap p cardData sigs').1.spiffeID =
        (verifySignature x509 config now configMap p cardData sigs).1.spiffeID

variable {config : ProviderConfig} {now : Int} {configMap : Except String StringMap}
  {p : X5CProvider Cert}

theorem maybeRefresh_bundle {p' : X5CProvider Cert}
    (h : maybeRefreshTrustBundle x509 config now configMap p = .ok p') :
    ∃ roots, p'.trustBundle = some roots := by
  have refreshed {p''} (h : refreshTrustBundle x509 config now configMap p = .ok p'') :
      ∃ roots, p''.trustBundle = some roots := by
    revert h
    fun_cases refreshTrustBundle <;> rintro ⟨⟩
    exact ⟨_, rfl⟩
  revert h
  fun_cases maybeRefreshTrustBundle <;> rintro ⟨⟩
  case case2 hok | case5 hok => exact refreshed hok
  all_goals exact ⟨_, by assumption⟩

theorem verifySignature_some (h : bundleInUse x509 config now configMap p = some roots)
    (sigs : List AgentCardSignature) :
    (verifySignature x509 config now configMap p cardData sigs).1 =
      verifyEach x509 roots cardData sigs := by
  unfold bundleInUse at h
  unfold verifySignature
  split
  next e herror =>
    rw [herror] at h
    cases h
  next p' hok =>
    rw [hok] at h
    have hroots : p'.trustBundle = some roots := h
    rw [hroots]
    rfl

theorem verifySignature_none (h : bundleInUse x509 config now configMap p = none)
    (sigs : List AgentCardSignature) :
    (verifySignature x509 config now configMap p cardData sigs).1.verified = false := by
  unfold bundleInUse at h
  unfold verifySignature
  split
  · rfl
  next p' hok =>
    obtain ⟨roots, hroots⟩ := maybeRefresh_bundle hok
    rw [hok] at h
    cases hroots.symm.trans h

theorem someValid_perm {sigs' : List AgentCardSignature} (hperm : sigs.Perm sigs') :
    SomeValid x509 roots cardData sigs' ↔ SomeValid x509 roots cardData sigs := by
  simp only [SomeValid, hperm.mem_iff]

theorem verifyEach_verified_iff
    (h : SomeValid x509 roots cardData sigs → ∀ sig ∈ sigs, ¬ RejectedEntry x509 roots sig) :
    (verifyEach x509 roots cardData sigs).verified = true ↔ SomeValid x509 roots cardData sigs := by
  constructor
  · intro hverified
    obtain ⟨sig, hmem, hvalid⟩ := exists_valid_of_verified hverified
    exact ⟨sig, hmem, _, hvalid⟩
  · intro hvalid
    exact verified_of_someValid (h hvalid) hvalid

theorem spiffeID_of_single (hid : ValidEntry x509 roots cardData sig id)
    (hsingle : ∀ sig' ∈ sigs, ∀ id, ValidEntry x509 roots cardData sig' id → sig' = sig)
    (hverified : (verifyEach x509 roots cardData sigs).verified = true) :
    (verifyEach x509 roots cardData sigs).spiffeID = id := by
  obtain ⟨sig', hmem, hvalid⟩ := exists_valid_of_verified hverified
  obtain rfl := hsingle sig' hmem _ hvalid
  exact hvalid.unique hid

/-- `VerifySignature` meets its contract on exactly those lists that do not mix valid entries with
entries whose chain or SPIFFE ID is rejected: a rejected entry ends the loop, and hides the valid
entries behind it. -/
theorem verify_signature_contract_iff (x509 : X509 Key Cert) (config : ProviderConfig) (now : Int)
    (configMap : Except String StringMap) (p : X5CProvider Cert) (cardData : AgentCardData)
    (sigs : List AgentCardSignature) :
    MeetsContract x509 config now configMap p cardData sigs ↔
      ∀ roots, bundleInUse x509 config now configMap p = some roots →
        SomeValid x509 roots cardData sigs → ∀ sig ∈ sigs, ¬ RejectedEntry x509 roots sig := by
  constructor
  · intro h roots hroots hvalid sig hmem hrejected
    -- move the rejected entry to the front
    obtain ⟨front, back, rfl⟩ := List.append_of_mem hmem
    have hverdict := h.verdict (sig :: (front ++ back)) List.perm_middle
    have hverified := h.verified_iff.mpr ⟨roots, hroots, hvalid⟩
    rw [hverified, verifySignature_some hroots, not_verified_of_rejected_head hrejected] at hverdict
    cases hverdict
  · intro h
    cases hbundle : bundleInUse x509 config now configMap p with
    | none =>
      refine ⟨?_, ?_, ?_⟩
      · rw [verifySignature_none hbundle, hbundle]
        simp
      · intro sigs' _
        rw [verifySignature_none hbundle, verifySignature_none hbundle]
      · intro sigs' _ roots hroots
        rw [hbundle] at hroots
        cases hroots
    | some roots =>
      have hfinds : ∀ {sigs'}, sigs.Perm sigs' →
          ((verifyEach x509 roots cardData sigs').verified = true ↔
            SomeValid x509 roots cardData sigs) := by
        intro sigs' hperm
        rw [← someValid_perm hperm]
        refine verifyEach_verified_iff fun hvalid sig hmem => ?_
        exact h roots hbundle ((someValid_perm hperm).mp hvalid) sig (hperm.mem_iff.mpr hmem)
      refine ⟨?_, ?_, ?_⟩
      · rw [verifySignature_some hbundle, hfinds (List.Perm.refl sigs), hbundle]
        simp
      · intro sigs' hperm
        rw [verifySignature_some hbundle, verifySignature_some hbundle, Bool.eq_iff_iff,
          hfinds hperm, hfinds (List.Perm.refl sigs)]
      · rintro sigs' hperm roots' hroots' ⟨sig, ⟨id, hid⟩, hmem, hsingle⟩
        rw [hbundle] at hroots'
        obtain rfl := Option.some.inj hroots'
        have hvalid : SomeValid x509 roots cardData sigs := ⟨sig, hmem, id, hid⟩
        rw [verifySignature_some hbundle, verifySignature_some hbundle,
          spiffeID_of_single hid hsingle ((hfinds (List.Perm.refl sigs)).mpr hvalid),
          spiffeID_of_single hid (fun s hs => hsingle s (hperm.mem_iff.mpr hs))
            ((hfinds hperm).mpr hvalid)]

/-- Two certificates with the same SPIFFE ID, `[0]` of an unknown authority and `[1]` of a trusted
one, under whose keys every signature verifies. -/
def twoAuthorities : X509 Unit Bool where
  kind _ := .ecdsa ⟨"P-256", 256⟩
  digest _ b := b
  verifyPSS _ _ _ _ := false
  verifyPKCS1v15 _ _ _ _ := false
  ecdsaVerify _ _ _ _ := false
  ecdsaVerifyASN1 _ _ _ := true
  marshalPKIX _ := some []
  parsePKIX _ := some ()
  parsePKCS1 _ := none
  pemEncode der := der
  pemDecode := some
  parsePKIX_marshalPKIX _ _ _ := rfl
  pemDecode_pemEncode _ := rfl
  parseCertificate der := if der = [0] then some false else if der = [1] then some true else none
  uris _ := [⟨"spiffe", "spiffe://example.org/agent"⟩]
  publicKey _ := ()
  notBefore _ := 0
  notAfter _ := 3600000000000
  verify _ _ _ cert :=
    if cert then .ok () else .error "x509: certificate signed by unknown authority"
  pemBlocks _ := []
  urlHost _ := some "example.org"
  sha256Hex s := s

/-- The header is `{"alg":"ES256","x5c":["AA=="]}`. -/
def unknownEntry : AgentCardSignature :=
  ⟨"eyJhbGciOiJFUzI1NiIsIng1YyI6WyJBQT09Il19", "", none⟩

/-- The header is `{"alg":"ES256","x5c":["AQ=="]}`. -/
def trustedEntry : AgentCardSignature :=
  ⟨"eyJhbGciOiJFUzI1NiIsIng1YyI6WyJBUT09Il19", "", none⟩

/-- The trusted entry alone, or in front, is verified; behind the other one it is not. -/
theorem rejected_entry_hides_valid_one :
    ¬ MeetsContract twoAuthorities ⟨"trust-bundle", "spire", "bundle.spiffe", 300000000000⟩ 1
      (.error "not read") ⟨some [true], 0, ""⟩
      ⟨"agent", "", "", "", "", "", none, none, [], [], [], none, []⟩
      [unknownEntry, trustedEntry] := by
  intro h
  have hverdict := h.verdict [trustedEntry, unknownEntry] (List.Perm.swap _ _ _)
  revert hverdict
  decide +kernel

end Kagenti.Operator.Signature
