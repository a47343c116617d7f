import Kagenti.Lib.Transition
import Kagenti.TokenBroker.TokenCache

/-!
The expiry that `ParseJWTExpiry` reads from a token against the `exp` claim the token carries, and
what follows for the tokens `GetToken` returns.
-/

namespace Kagenti.TokenBroker

open Go Lib.Transition

/-! The claims of a payload -/

def integerValue (n : JsonNumber) : Option Int :=
  let mantissa := JsonNumber.ofDigits (n.intDigits ++ n.fracDigits)
  let exponent : Int :=
    match n.exponent with
    | none => 0
    | some (negative, ds) => if negative then -(JsonNumber.ofDigits ds : Int) else JsonNumber.ofDigits ds
  let shift := exponent - n.fracDigits.length
  let magnitude : Option Nat :=
    if 0 ≤ shift then some (mantissa * 10 ^ shift.toNat)
    else if mantissa % 10 ^ (-shift).toNat = 0 then some (mantissa / 10 ^ (-shift).toNat)
    else none
  magnitude.map fun m => if n.negative then -(m : Int) else m

def objectMembers (json : Bytes) : Option (List (String × Json)) :=
  match Json.parse json with
  | some (.obj ms) => some ms
  | _ => none

def expClaim (json : Bytes) : Option Int :=
  ((objectMembers json).bind fun ms => Json.member ms "exp").bind fun
    | .num literal => integerValue literal
    | _ => none

structure IsJwt (token : String) (json : Bytes) (exp : Int) : Prop where
  parts : ∃ header signature,
    splitBytes 0x2E (bytes token) = [header, Base64.rawURLEncode json, signature]
  claim : expClaim json = some exp
  nonzero : exp ≠ 0

/-- The members that are decoded into the field `Exp`: their names need to agree with its name
only up to case. -/
def expMembers (ms : List (String × Json)) : List Json :=
  (ms.filter fun m => foldName "exp" = foldName m.1).map Prod.snd

/-- The value of an integer literal that fits into 64 bits. -/
def int64Literal : Json → Option Int
  | .num n => n.toInt64
  | _ => none

def int64OrNull : Json → Bool
  | .null => true
  | v => (int64Literal v).isSome

structure Readable (json : Bytes) (exp : Int) : Prop where
  unpadded : json.length % 3 = 0
  decodes : ∀ ms ∈ objectMembers json, (expMembers ms).all int64OrNull = true
  last : ∀ ms ∈ objectMembers json, ((expMembers ms).filterMap int64Literal).getLast? = some exp
  inRange : exp < 2 ^ 63 - 62135596800

/-! Decoding -/

theorem fieldFor_exp (into : Into JWTClaims) (key : String) :
    fieldFor [("exp", into)] key = if foldName "exp" = foldName key then some into else none := by
  unfold fieldFor
  by_cases hkey : "exp" = key
  · subst hkey
    simp
  · by_cases hfold : foldName "exp" = foldName key <;> simp [hkey, hfold]

private theorem foldlM_members (old : Int) (ms : List (String × Json)) :
    JWTClaims.into ⟨old⟩ (.obj ms) = ((expMembers ms).foldlM Into.int old).map JWTClaims.mk := by
  induction ms generalizing old with
  | nil => rfl
  | cons m ms ih =>
    obtain ⟨key, value⟩ := m
    rw [JWTClaims.into, Into.struct, List.foldlM_cons]
    dsimp only
    rw [fieldFor_exp]
    by_cases hfold : foldName "exp" = foldName key
    · have hmembers : expMembers ((key, value) :: ms) = value :: expMembers ms := by
        simp [expMembers, hfold]
      rw [hmembers, List.foldlM_cons, if_pos hfold]
      dsimp only [Into.field]
      cases hint : Into.int old value with
      | none => rfl
      | some exp => exact ih exp
    · have hmembers : expMembers ((key, value) :: ms) = expMembers ms := by
        simp [expMembers, hfold]
      rw [hmembers, if_neg hfold]
      exact ih old

variable {exp : Int} {vs : List Json}

private theorem foldlM_int_iff {old : Int} : vs.foldlM Into.int old = some exp ↔
      vs.all int64OrNull = true ∧ (vs.filterMap int64Literal).getLast?.getD old = exp := by
  induction vs generalizing old with
  | nil => simp [pure]
  | cons v vs ih =>
    rw [List.foldlM_cons, List.all_cons, Bool.and_eq_true]
    simp only [Option.bind_eq_bind, Option.bind_eq_some_iff, ih]
    cases v with
    | null => simp [Into.int, int64OrNull, int64Literal]
    | num n =>
      cases hn : n.toInt64 with
      | none => simp [Into.int, int64OrNull, int64Literal, hn]
      | some value =>
        have hlit : int64Literal (.num n) = some value := hn
        rw [List.filterMap_cons_some hlit, List.getLast?_cons]
        simp [Into.int, int64OrNull, hlit, hn]
    | bool | str | arr | obj => simp [Into.int, int64OrNull, int64Literal]

variable {json : Bytes} {ms : List (String × Json)}

theorem objectMembers_eq_some_iff :
    objectMembers json = some ms ↔ Json.parse json = some (.obj ms) := by
  unfold objectMembers
  split
  next ms' hparse => simp [hparse]
  next hother => grind

theorem unmarshal_claims_iff (hms : objectMembers json = some ms) :
    unmarshal JWTClaims.into ⟨0⟩ json = some ⟨exp⟩ ↔
      (expMembers ms).all int64OrNull = true ∧
        ((expMembers ms).filterMap int64Literal).getLast?.getD 0 = exp := by
  rw [unmarshal, objectMembers_eq_some_iff.mp hms, Option.bind_some, foldlM_members,
    ← foldlM_int_iff]
  simp [JWTClaims.mk.injEq]

/-! The expiry of a token -/

def expiryOf (now : Time) : Option JWTClaims → Time
  | none => longLived now
  | some claims => if claims.exp = 0 then longLived now else unixTime claims.exp

def expiryOfSegment (now : Time) (padded : Bytes) : Time :=
  match Base64.rawURLDecode padded with
  | none => longLived now
  | some decoded => expiryOf now (unmarshal JWTClaims.into ⟨0⟩ decoded)

theorem expiryOfSegment_padded (now : Time) (payload : Bytes) {padding : Bytes}
    (h : 0x3D ∈ padding) : expiryOfSegment now (payload ++ padding) = longLived now := by
  rw [expiryOfSegment, Base64.rawURLDecode_padded payload h]

variable {token : String}

theorem parseJWTExpiry_of_parts {header signature : Bytes}
    (hparts : splitBytes 0x2E (bytes token) = [header, Base64.rawURLEncode json, signature])
    (now : Time) : parseJWTExpiry now token =
      if json.length % 3 = 0 then expiryOf now (unmarshal JWTClaims.into ⟨0⟩ json)
      else longLived now := by
  have hmod := Base64.length_rawURLEncode_mod json
  rw [parseJWTExpiry, hparts]
  dsimp only
  by_cases hlen : json.length % 3 = 0
  · rw [if_pos hlen] at hmod
    rw [if_pos hlen, hmod]
    change expiryOfSegment now (Base64.rawURLEncode json) = _
    rw [expiryOfSegment, Base64.rawURLDecode_rawURLEncode]
  · rw [if_neg hlen] at hmod
    rw [if_neg hlen]
    have hcases : json.length % 3 + 1 = 2 ∨ json.length % 3 + 1 = 3 := by omega
    rcases hcases with htwo | hthree
    · rw [htwo] at hmod
      rw [hmod]
      exact expiryOfSegment_padded now _ (by decide)
    · rw [hthree] at hmod
      rw [hmod]
      exact expiryOfSegment_padded now _ (by decide)

theorem longLived_not_constant (t : Time) : ¬ ∀ now, longLived now = t := by
  intro h
  have hsame : longLived 0 = longLived 1 := (h 0).trans (h 1).symm
  exact absurd hsame (by decide)

theorem unixTime_eq_iff {sec : Int} (hsec : -(2 ^ 63) ≤ sec ∧ sec < 2 ^ 63)
    (hexp : -(2 ^ 63) ≤ exp ∧ exp < 2 ^ 63) :
    unixTime sec = exp * second ↔ sec = exp ∧ exp < 2 ^ 63 - 62135596800 := by
  have hsecond : second ≠ 0 := by decide
  rw [unixTime, Int.mul_eq_mul_right_iff hsecond, Int.bmod_def]
  split <;> omega

variable {v : Int} {n : JsonNumber}

theorem toInt64_eq_some_iff : n.toInt64 = some v ↔ (n.fracDigits = [] ∧ n.exponent = none) ∧
      (if n.negative then -(JsonNumber.ofDigits n.intDigits : Int)
        else JsonNumber.ofDigits n.intDigits) = v ∧ -(2 ^ 63) ≤ v ∧ v < 2 ^ 63 := by
  simp only [JsonNumber.toInt64, Option.ite_none_right_eq_some, Option.some.injEq]
  rw [and_congr_right fun _ => and_comm.trans (and_congr_right fun hvalue => by rw [hvalue])]

theorem integerValue_of_toInt64 (h : n.toInt64 = some v) : integerValue n = some v := by
  obtain ⟨⟨hfrac, hexponent⟩, rfl, -⟩ := toInt64_eq_some_iff.mp h
  simp [integerValue, hfrac, hexponent]

theorem IsJwt.literal_mem (h : IsJwt token json exp) (hms : objectMembers json = some ms) :
    ∃ literal, .num literal ∈ expMembers ms ∧ integerValue literal = some exp := by
  have hclaim := h.claim
  rw [expClaim, hms, Option.bind_some, Option.bind_eq_some_iff] at hclaim
  obtain ⟨_, hmember, hvalue⟩ := hclaim
  rw [Json.member, Option.map_eq_some_iff] at hmember
  obtain ⟨⟨key, v⟩, hfind, rfl⟩ := hmember
  have hkey : key = "exp" := by simpa using List.find?_some hfind
  subst hkey
  have hmem : ("exp", v) ∈ ms := List.mem_reverse.mp (List.mem_of_find?_eq_some hfind)
  cases v with
  | num literal =>
    exact ⟨literal, List.mem_map.mpr ⟨_, List.mem_filter.mpr ⟨hmem, by simp⟩, rfl⟩, hvalue⟩
  | null | bool | str | arr | obj => cases hvalue

theorem IsJwt.bounds (h : IsJwt token json exp) (hms : objectMembers json = some ms)
    (hall : (expMembers ms).all int64OrNull = true) : -(2 ^ 63) ≤ exp ∧ exp < 2 ^ 63 := by
  obtain ⟨literal, hmem, hvalue⟩ := h.literal_mem hms
  obtain ⟨v, hv⟩ := Option.isSome_iff_exists.mp (List.all_eq_true.mp hall _ hmem)
  have hv : literal.toInt64 = some v := hv
  obtain rfl : v = exp := by
    rw [integerValue_of_toInt64 hv] at hvalue
    exact Option.some.inj hvalue
  exact (toInt64_eq_some_iff.mp hv).2.2

theorem last_literal_bounds (h : (vs.filterMap int64Literal).getLast? = some v) :
    -(2 ^ 63) ≤ v ∧ v < 2 ^ 63 := by
  obtain ⟨j, -, hj⟩ := List.mem_filterMap.mp (List.mem_of_getLast? h)
  cases j with
  | num n => exact (toInt64_eq_some_iff.mp hj).2.2
  | null | bool | str | arr | obj => cases hj

private theorem decoded_of_expiryOf {claims : Option JWTClaims} {t : Time}
    (h : ∀ now, expiryOf now claims = t) :
    ∃ sec, claims = some ⟨sec⟩ ∧ sec ≠ 0 ∧ unixTime sec = t := by
  cases claims with
  | none => exact absurd h (longLived_not_constant t)
  | some c =>
    by_cases hzero : c.exp = 0
    · simp only [expiryOf, hzero, if_true] at h
      exact absurd h (longLived_not_constant t)
    · simp only [expiryOf, hzero, if_false, forall_const] at h
      exact ⟨c.exp, rfl, hzero, h⟩

theorem parseJWTExpiry_eq_iff (h : IsJwt token json exp) :
    (∀ now, parseJWTExpiry now token = exp * second) ↔ Readable json exp := by
  obtain ⟨header, signature, hparts⟩ := h.parts
  obtain ⟨ms, hms⟩ : ∃ ms, objectMembers json = some ms := by
    have hclaim := h.claim
    rw [expClaim, Option.bind_eq_some_iff] at hclaim
    obtain ⟨v, hmember, -⟩ := hclaim
    obtain ⟨ms, hms, -⟩ := Option.bind_eq_some_iff.mp hmember
    exact ⟨ms, hms⟩
  simp only [parseJWTExpiry_of_parts hparts]
  constructor
  · intro hexpiry
    have hlen : json.length % 3 = 0 := by
      by_contra hlen
      simp only [if_neg hlen] at hexpiry
      exact longLived_not_constant _ hexpiry
    simp only [if_pos hlen] at hexpiry
    obtain ⟨sec, hdecoded, hzero, hunix⟩ := decoded_of_expiryOf hexpiry
    obtain ⟨hall, hlast⟩ := (unmarshal_claims_iff hms).mp hdecoded
    have hlast : ((expMembers ms).filterMap int64Literal).getLast? = some sec := by grind
    obtain ⟨rfl, hrange⟩ :=
      (unixTime_eq_iff (last_literal_bounds hlast) (h.bounds hms hall)).mp hunix
    refine ⟨hlen, fun ms' hms' => ?_, fun ms' hms' => ?_, hrange⟩
    · obtain rfl : ms = ms' := Option.some.inj (hms.symm.trans hms')
      exact hall
    · obtain rfl : ms = ms' := Option.some.inj (hms.symm.trans hms')
      exact hlast
  · intro hread now
    have hall := hread.decodes ms hms
    have hdecoded : unmarshal JWTClaims.into ⟨0⟩ json = some ⟨exp⟩ := by
      rw [unmarshal_claims_iff hms, hread.last ms hms]
      exact ⟨hall, rfl⟩
    have hbounds := h.bounds hms hall
    rw [if_pos hread.unpadded, hdecoded, expiryOf, if_neg h.nonzero]
    exact (unixTime_eq_iff hbounds hbounds).mpr ⟨rfl, hread.inRange⟩

/-! The cache -/

inductive CacheCall where
  | setToken (now : Time) (sessionKey resourceURL token : String)
  | getToken (now : Time) (sessionKey resourceURL : String)
  | deleteToken (sessionKey resourceURL : String)
  | cleanupExpiredTokens (now : Time)

def TokenCache.afterCall (tc : TokenCache) : CacheCall → TokenCache
  | .setToken now sessionKey resourceURL token => tc.setToken now sessionKey resourceURL token
  | .getToken _ _ _ => tc
  | .deleteToken sessionKey resourceURL => tc.deleteToken sessionKey resourceURL
  | .cleanupExpiredTokens now => tc.cleanupExpiredTokens now

def cacheCalls : System TokenCache CacheCall where
  init := .new
  step tc call := some (tc.afterCall call)

def ExpiryRead (tc : TokenCache) : Prop :=
  ∀ key url e, tc.entry key url = some e → ∃ now, e.expiresAt = parseJWTExpiry now e.accessToken

variable {tc : TokenCache}

theorem ExpiryRead.afterCall (h : ExpiryRead tc) (call : CacheCall) :
    ExpiryRead (tc.afterCall call) := by
  intro key url e he
  cases call with
  | setToken now sessionKey resourceURL token =>
    rw [TokenCache.afterCall, TokenCache.entry_setToken] at he
    split at he
    · obtain rfl := Option.some.inj he
      exact ⟨now, rfl⟩
    · exact h key url e he
  | getToken now sessionKey resourceURL => exact h key url e he
  | deleteToken sessionKey resourceURL => exact h key url e (TokenCache.entry_deleteToken he)
  | cleanupExpiredTokens now => exact h key url e (TokenCache.entry_cleanupExpiredTokens he)

theorem expiryRead_of_reachable (h : cacheCalls.Reachable System.anyAction tc) : ExpiryRead tc := by
  refine h.invariant (fun key url e he => ?_) fun tc call tc' htc _ hstep => ?_
  · cases he
  · obtain rfl := Option.some.inj hstep
    exact htc.afterCall call

theorem le_of_not_expired {now expiresAt : Time} (h : isTokenExpired now expiresAt = false) :
    now + 5 * 60 * second ≤ expiresAt := by
  obtain ⟨-, hnear⟩ := Bool.or_eq_false_iff.mp h
  have hnear : ¬ (expiresAt - now < 5 * 60 * second) := of_decide_eq_false hnear
  rw [Int.add_comm]
  exact Int.add_le_of_le_sub_right (Int.not_lt.mp hnear)

/-- The expiry of a token is its `exp` claim exactly when the payload is readable, and no
sequence of calls then brings the cache to return the token with less than five minutes left. -/
theorem expiry_faithful_iff {token : String} {json : Bytes} {exp : Int}
    (h : IsJwt token json exp) :
    ((∀ now, parseJWTExpiry now token = exp * second) ↔ Readable json exp) ∧
      (Readable json exp → ∀ tc,
        cacheCalls.Reachable System.anyAction tc →
          ∀ now sessionKey resourceURL, tc.getToken now sessionKey resourceURL = some token →
            now + 5 * 60 * second ≤ exp * second) := by
  refine ⟨parseJWTExpiry_eq_iff h, fun hread tc htc now sessionKey resourceURL hget => ?_⟩
  obtain ⟨e, hentry, hfresh, rfl⟩ := TokenCache.getToken_eq_some hget
  obtain ⟨stored, hexpiry⟩ := expiryRead_of_reachable htc sessionKey resourceURL e hentry
  have hexp : e.expiresAt = exp * second := by
    rw [hexpiry]
    exact (parseJWTExpiry_eq_iff h).mpr hread stored
  rw [← hexp]
  exact le_of_not_expired hfresh

/-- A payload without base64 padding. -/
theorem expiry_faithful_unpadded :
    (∀ now, parseJWTExpiry now "h.eyJleHAiOjF9.s" = 1 * second) ∧
      ∀ tc, cacheCalls.Reachable System.anyAction tc →
        ∀ now sessionKey resourceURL,
          tc.getToken now sessionKey resourceURL = some "h.eyJleHAiOjF9.s" →
            now + 5 * 60 * second ≤ 1 * second := by
  have hjwt : IsJwt "h.eyJleHAiOjF9.s" (bytes "\x7b\"exp\":1\x7d") 1 :=
    ⟨⟨bytes "h", bytes "s", by decide +kernel⟩, by decide +kernel, by decide⟩
  have hread : Readable (bytes "\x7b\"exp\":1\x7d") 1 :=
    ⟨by decide +kernel, by decide +kernel, by decide +kernel, by decide⟩
  obtain ⟨hexpiry, hcache⟩ := expiry_faithful_iff hjwt
  exact ⟨hexpiry.mpr hread, hcache hread⟩

/-- A token that expired at ten seconds after the epoch: its payload of ten bytes has an
encoding that is padded, and the cache returns the token long after its expiry. -/
theorem padded_payload_outlives_expiry :
    IsJwt "h.eyJleHAiOjEwfQ.s" (bytes "\x7b\"exp\":10\x7d") 10 ∧
      parseJWTExpiry 0 "h.eyJleHAiOjEwfQ.s" = longLived 0 ∧
      ∃ tc, cacheCalls.Reachable System.anyAction tc ∧
        tc.getToken (1000 * second) "session" "resource" = some "h.eyJleHAiOjEwfQ.s" := by
  refine ⟨⟨⟨bytes "h", bytes "s", by decide +kernel⟩, by decide +kernel, by decide⟩,
    by decide +kernel, ?_⟩
  refine ⟨_, System.reachable_of_run
    [.setToken 0 "session" "resource" "h.eyJleHAiOjEwfQ.s"] rfl, ?_⟩
  decide +kernel

end Kagenti.TokenBroker
