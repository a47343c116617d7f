import Kagenti.Go.Base64
import Kagenti.Go.Unmarshal
import Kagenti.TokenBroker.SessionManager

/-!
The token cache (`internal/cache/token_cache.go`) and the expiry it reads from a token
(`internal/cache/jwt_parser.go`). Times are nanoseconds since the Unix epoch.
-/

namespace Kagenti.TokenBroker

open Go

def second : Time := 1000000000

/-- `time.Unix(sec, 0)`: the seconds are kept as a 64-bit count from the year 1, so a
count near the end of the range wraps around. -/
def unixTime (sec : Int) : Time :=
  (Int.bmod (sec + 62135596800) (2 ^ 64) - 62135596800) * second

structure JWTClaims where
  exp : Int
  deriving DecidableEq

def JWTClaims.into : Into JWTClaims :=
  Into.struct [("exp", Into.field JWTClaims.exp (fun _ exp => ⟨exp⟩) Into.int)]

def longLived (now : Time) : Time := now + 365 * 24 * 3600 * second

/-- `ParseJWTExpiry`, which never returns an error. -/
def parseJWTExpiry (now : Time) (token : String) : Time :=
  match splitBytes 0x2E (bytes token) with
  | [_, payload, _] =>
    let padded :=
      match payload.length % 4 with
      | 2 => payload ++ [0x3D, 0x3D]
      | 3 => payload ++ [0x3D]
      | _ => payload
    match Base64.rawURLDecode padded with
    | none => longLived now
    | some decoded =>
      match unmarshal JWTClaims.into ⟨0⟩ decoded with
      | none => longLived now
      | some claims => if claims.exp = 0 then longLived now else unixTime claims.exp
  | _ => longLived now

/-- `IsTokenExpired`: past its expiry, or with less than five minutes left. -/
def isTokenExpired (now expiresAt : Time) : Bool :=
  decide (expiresAt < now) || decide (expiresAt - now < 5 * 60 * second)

structure TokenEntry where
  accessToken : String
  expiresAt : Time
  createdAt : Time
  deriving DecidableEq

/-- `tokens` maps a session key and then a resource URL to a token. -/
structure TokenCache where
  tokens : AList fun _ : String => AList fun _ : String => TokenEntry

namespace TokenCache

def new : TokenCache := ⟨∅⟩

variable (tc : TokenCache)

def entry (sessionKey resourceURL : String) : Option TokenEntry :=
  (tc.tokens.lookup sessionKey).bind fun sessionTokens => sessionTokens.lookup resourceURL

def getToken (now : Time) (sessionKey resourceURL : String) : Option String :=
  match tc.tokens.lookup sessionKey with
  | none => none
  | some sessionTokens =>
    match sessionTokens.lookup resourceURL with
    | none => none
    | some entry => if isTokenExpired now entry.expiresAt then none else some entry.accessToken

def setToken (now : Time) (sessionKey resourceURL token : String) : TokenCache :=
  let sessionTokens := (tc.tokens.lookup sessionKey).getD ∅
  ⟨tc.tokens.insert sessionKey
    (sessionTokens.insert resourceURL ⟨token, parseJWTExpiry now token, now⟩)⟩

def deleteToken (sessionKey resourceURL : String) : TokenCache :=
  match tc.tokens.lookup sessionKey with
  | none => tc
  | some sessionTokens =>
    let left := sessionTokens.erase resourceURL
    if left.entries = [] then ⟨tc.tokens.erase sessionKey⟩
    else ⟨tc.tokens.insert sessionKey left⟩

/-- `CleanupExpiredTokens` for the tokens of one session. -/
def dropExpired (now : Time) (sessionTokens : AList fun _ : String => TokenEntry) :
    AList fun _ : String => TokenEntry :=
  sessionTokens.entries.foldl (fun kept e =>
    if isTokenExpired now e.2.expiresAt then kept.erase e.1 else kept) sessionTokens

def cleanupExpiredTokens (now : Time) : TokenCache :=
  ⟨tc.tokens.entries.foldl (fun kept e =>
    let left := dropExpired now e.2
    if left.entries = [] then kept.erase e.1 else kept.insert e.1 left) tc.tokens⟩

variable {tc} {now : Time} {sessionKey resourceURL : String}

theorem getToken_eq_some {token : String} (h : tc.getToken now sessionKey resourceURL = some token)
    : ∃ e, tc.entry sessionKey resourceURL = some e ∧ isTokenExpired now e.expiresAt = false ∧
      e.accessToken = token := by
  revert h
  fun_cases getToken <;> rintro ⟨⟩
  next sessionTokens hsession e hentry hfresh =>
    refine ⟨e, ?_, by simpa using hfresh, rfl⟩
    simp [entry, hsession, hentry]

theorem entry_setToken (now : Time) (sessionKey resourceURL token key url : String) :
    (tc.setToken now sessionKey resourceURL token).entry key url =
      if key = sessionKey ∧ url = resourceURL then
        some ⟨token, parseJWTExpiry now token, now⟩
      else tc.entry key url := by
  simp only [entry, setToken]
  by_cases hkey : key = sessionKey
  · subst hkey
    rw [AList.lookup_insert]
    by_cases hurl : url = resourceURL
    · subst hurl
      simp
    · simp only [Option.bind_some, hurl, and_false, if_false]
      rw [AList.lookup_insert_ne hurl]
      cases tc.tokens.lookup key with
      | none => simp
      | some sessionTokens => rfl
  · rw [AList.lookup_insert_ne hkey]
    simp [hkey]

variable {key url : String} {e : TokenEntry}

theorem entry_deleteToken (h : (tc.deleteToken sessionKey resourceURL).entry key url = some e) :
    tc.entry key url = some e := by
  unfold deleteToken at h
  split at h
  · exact h
  next sessionTokens hsession =>
    grind [entry, Option.bind_eq_some_iff, Lib.Entries.lookup_of_erase, AList.lookup_insert,
      Option.some.inj, AList.lookup_insert_ne]

theorem isTokenExpired_mono {now' expiresAt : Time} (hnow : now ≤ now')
    (h : isTokenExpired now' expiresAt = false) : isTokenExpired now expiresAt = false := by
  simp only [isTokenExpired, Bool.or_eq_false_iff, decide_eq_false_iff_not] at *
  refine ⟨fun hpast => h.1 (Int.lt_of_lt_of_le hpast hnow), fun hnear => h.2 ?_⟩
  exact Int.lt_of_le_of_lt (Int.sub_le_sub_left hnow expiresAt) hnear

variable {β : Type*} {v : β}

theorem lookup_eraseAll (kept : AList fun _ : String => β) (keys : List (Sigma fun _ : String => β))
    (p : (Sigma fun _ : String => β) → Bool)
    (h : (keys.foldl (fun kept e => if p e then kept.erase e.1 else kept) kept).lookup key =
      some v) : kept.lookup key = some v := by
  induction keys generalizing kept with
  | nil => exact h
  | cons e rest ih =>
    have hnext := ih _ h
    dsimp only at hnext
    split at hnext
    · exact Lib.Entries.lookup_of_erase hnext
    · exact hnext

variable {m : AList fun _ : String => TokenEntry}

private theorem lookup_cleanup_part (now : Time) (kept : AList fun _ : String => _)
    (sessions : List (Sigma fun _ : String => AList fun _ : String => TokenEntry))
    (hsessions : ∀ e ∈ sessions, tc.tokens.lookup e.1 = some e.2)
    (hkept : Lib.Entries.Forall (fun key m => ∃ m₀, tc.tokens.lookup key = some m₀ ∧
      ∀ url e, m.lookup url = some e → m₀.lookup url = some e) kept)
    (h : (sessions.foldl (fun kept e =>
      let left := dropExpired now e.2
      if left.entries = [] then kept.erase e.1 else kept.insert e.1 left) kept).lookup key =
        some m) : ∃ m₀, tc.tokens.lookup key = some m₀ ∧
      ∀ url e, m.lookup url = some e → m₀.lookup url = some e := by
  induction sessions generalizing kept with
  | nil => exact hkept key m h
  | cons e rest ih =>
    refine ih _ (fun e' he' => hsessions e' (List.mem_cons_of_mem _ he')) ?_ h
    dsimp only
    split
    · exact hkept.erase e.1
    · refine hkept.insert ⟨e.2, hsessions e List.mem_cons_self, fun url entry hentry => ?_⟩
      exact lookup_eraseAll e.2 _ _ hentry

theorem entry_cleanupExpiredTokens (h : (tc.cleanupExpiredTokens now).entry key url = some e) :
    tc.entry key url = some e := by
  simp only [entry, Option.bind_eq_some_iff] at *
  obtain ⟨m, hm, he⟩ := h
  obtain ⟨m₀, hm₀, hpart⟩ := lookup_cleanup_part now tc.tokens tc.tokens.entries
    (fun e he => AList.mem_lookup_iff.mpr he)
    (fun key m hm => ⟨m, hm, fun _ _ he => he⟩) hm
  exact ⟨m₀, hm₀, hpart url e he⟩

theorem lookup_eraseAll_of_kept (kept : AList fun _ : String => β)
    (keys : List (Sigma fun _ : String => β)) (p : (Sigma fun _ : String => β) → Bool)
    (hkept : kept.lookup key = some v) (hp : ∀ e ∈ keys, e.1 = key → p e = false) :
    (keys.foldl (fun kept e => if p e then kept.erase e.1 else kept) kept).lookup key = some v := by
  induction keys generalizing kept with
  | nil => exact hkept
  | cons e rest ih => grind [AList.lookup_erase_ne]

theorem lookup_dropExpired_of_fresh (h : m.lookup url = some e)
    (hfresh : isTokenExpired now e.expiresAt = false) :
    (dropExpired now m).lookup url = some e := by
  refine lookup_eraseAll_of_kept m _ _ h fun e' he' hkey => ?_
  have hlookup : m.lookup e'.1 = some e'.2 := AList.mem_lookup_iff.mpr he'
  rw [hkey, h] at hlookup
  rw [← Option.some.inj hlookup]
  exact hfresh

private theorem lookup_cleanup_kept (now : Time) (kept : AList fun _ : String => _)
    (sessions : List (Sigma fun _ : String => AList fun _ : String => TokenEntry))
    (hsessions : ∀ entry ∈ sessions, entry.1 = key → entry.2.lookup url = some e)
    (hfresh : isTokenExpired now e.expiresAt = false)
    (hkept : ∃ m, kept.lookup key = some m ∧ m.lookup url = some e) :
    ∃ m, (sessions.foldl (fun kept e =>
      let left := dropExpired now e.2
      if left.entries = [] then kept.erase e.1 else kept.insert e.1 left) kept).lookup key =
        some m ∧ m.lookup url = some e := by
  induction sessions generalizing kept with
  | nil => exact hkept
  | cons entry rest ih =>
    refine ih _ (fun e' he' => hsessions e' (List.mem_cons_of_mem _ he')) ?_
    obtain ⟨m, hm, he⟩ := hkept
    dsimp only
    by_cases hkey : entry.1 = key
    · have hleft := lookup_dropExpired_of_fresh
        (hsessions entry List.mem_cons_self hkey) hfresh
      have hne : (dropExpired now entry.2).entries ≠ [] := by
        intro hnil
        have hmem := AList.mem_lookup_iff.mp hleft
        rw [hnil] at hmem
        cases hmem
      rw [if_neg hne, hkey]
      exact ⟨_, AList.lookup_insert _, hleft⟩
    · refine ⟨m, ?_, he⟩
      split
      · rw [AList.lookup_erase_ne (Ne.symm hkey), hm]
      · rw [AList.lookup_insert_ne (Ne.symm hkey), hm]

theorem entry_cleanupExpiredTokens_of_fresh (h : tc.entry key url = some e)
    (hfresh : isTokenExpired now e.expiresAt = false) :
    (tc.cleanupExpiredTokens now).entry key url = some e := by
  simp only [entry, Option.bind_eq_some_iff] at *
  obtain ⟨m, hm, he⟩ := h
  refine lookup_cleanup_kept now tc.tokens tc.tokens.entries ?_ hfresh ⟨m, hm, he⟩
  intro entry hentry hkey
  have hlookup : tc.tokens.lookup entry.1 = some entry.2 := AList.mem_lookup_iff.mpr hentry
  rw [hkey, hm] at hlookup
  rw [← Option.some.inj hlookup]
  exact he

theorem getToken_of_entry (h : tc.entry key url = some e)
    (hfresh : isTokenExpired now e.expiresAt = false) :
    tc.getToken now key url = some e.accessToken := by
  simp only [entry, Option.bind_eq_some_iff] at h
  obtain ⟨m, hm, he⟩ := h
  simp [getToken, hm, he, hfresh]

end TokenCache

end Kagenti.TokenBroker
