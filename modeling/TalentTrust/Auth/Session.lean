import TalentTrust.Lib.Run
import TalentTrust.Http.HeaderIdempotency
import TalentTrust.Auth.Authorization

/-!
Sessions: `AuthService` and the routes `/auth/login`, `/auth/refresh` and
`/auth/logout` behind the idempotency middleware.

A user has one refresh token at a time, stored as its SHA-256 digest. Logging
out clears the digest, provided that the handler runs: a logout request that
meets a stored response is answered 200 without it
(`logout_replayed_for_other_user`). A run interleaves requests at the points
where their handlers wait: a login or refresh request first passes the
middleware, then its handler reads and writes the database, then it responds. A
logout request does all of this at once.
-/

namespace TalentTrust.Auth

open TalentTrust.Lib
open TalentTrust.Http

/-! ### The platform -/

/-- What the service takes from its platform. Random values are numbered by
draw: refresh tokens of different draws differ. Verifying a refresh token, when
that succeeds, gives the subject it was signed for. -/
structure Platform where
  sha256 : String → List UInt8
  scrypt : String → String → List UInt8
  randomHex : Nat → String
  signAccess : String → String → String → Int → String
  signRefresh : String → String → Int → String
  /-- `jwt.verify` at a point in time. -/
  verify : String → Int → Except JwtError JwtPayload
  toLowerCase : String → String
  isEmail : String → Bool
  /-- The body of the 400 response of `validateSchema`. -/
  validationError : Json → Json
  sha256_injective : Function.Injective sha256
  draws_differ : ∀ {u v : String} {k k' : Nat} {n n' : Int},
    signRefresh u (randomHex k) n = signRefresh v (randomHex k') n' → k = k'
  sub_of_verify : ∀ {u : String} {k : Nat} {n now : Int} {payload : JwtPayload},
    verify (signRefresh u (randomHex k) n) now = .ok payload → payload.sub = some u

variable (p : Platform)

/-! ### The service -/

structure UserAuthRow where
  id : String
  email : String
  role : String
  passwordHash : Option String
  refreshTokenHash : Option String
  deriving DecidableEq

structure AuthTokens where
  accessToken : String
  refreshToken : String
  deriving DecidableEq

/-- The `users` table, the number of random values drawn, and, as history, the
refresh tokens issued so far with their users. -/
structure Sessions where
  users : List UserAuthRow
  drawn : Nat
  issued : List (String × String)
  deriving DecidableEq

def hashRefreshToken (raw : String) : String := sha256Hex p.sha256 raw

def normalizeEmail (email : String) : String := p.toLowerCase (trim email)

/-- `UPDATE users SET refresh_token_hash = ? WHERE id = ?`. -/
def setRefreshTokenHash (id : String) (hash : Option String) (users : List UserAuthRow) :
    List UserAuthRow :=
  users.map fun row => if row.id = id then { row with refreshTokenHash := hash } else row

/-- `verifyPassword`; the destructuring drops what follows a second colon. -/
def verifyPassword (password stored : String) : Bool :=
  match (stored.toList.splitOn ':').map String.ofList with
  | salt :: hashHex :: _ =>
    if salt = "" ∨ hashHex = "" then false
    else fromHex hashHex == p.scrypt password salt
  | _ => false

/-- `issueTokens`, and the update that stores the digest of the new refresh token. -/
def issueTokens (s : Sessions) (user : UserAuthRow) (now : Int) : AuthTokens × Sessions :=
  let refreshToken := p.signRefresh user.id (p.randomHex s.drawn) now
  ({ accessToken := p.signAccess user.id user.email user.role now, refreshToken },
    { users := setRefreshTokenHash user.id (some (hashRefreshToken p refreshToken)) s.users
      drawn := s.drawn + 1
      issued := s.issued ++ [(user.id, refreshToken)] })

/-- `login`; `none` is `invalid_credentials`. -/
def login (s : Sessions) (email password : String) (now : Int) : Option AuthTokens × Sessions :=
  match s.users.find? fun row => row.email = normalizeEmail p email with
  | none => (none, s)
  | some row =>
    -- A row without a password is checked against a dummy digest, like a missing row.
    let stored := row.passwordHash.getD
      (String.ofList (List.replicate 32 'a') ++ ":" ++ String.ofList (List.replicate 128 'b'))
    if verifyPassword p password stored then
      let (tokens, s') := issueTokens p s row now
      (some tokens, s')
    else (none, s)

/-- The checks of `refresh`: the row whose stored digest is that of the token. -/
def refreshUser (users : List UserAuthRow) (refreshToken : String) (now : Int) :
    Option UserAuthRow :=
  match p.verify refreshToken now with
  | .error _ => none
  | .ok decoded =>
    match decoded.sub.filter (· ≠ "") with
    | none => none
    | some userId =>
      match users.find? fun row => row.id = userId with
      | none => none
      | some row =>
        match row.refreshTokenHash.filter (· ≠ "") with
        | none => none
        | some hash =>
          if fromHex (hashRefreshToken p refreshToken) = fromHex hash then some row else none

/-- `refresh`; `none` is `invalid_refresh_token`. -/
def refresh (s : Sessions) (refreshToken : String) (now : Int) : Option AuthTokens × Sessions :=
  match refreshUser p s.users refreshToken now with
  | none => (none, s)
  | some row =>
    let revoked := { s with users := setRefreshTokenHash row.id none s.users }
    let (tokens, s') := issueTokens p revoked row now
    (some tokens, s')

def logout (s : Sessions) (userId : String) : Sessions :=
  { s with users := setRefreshTokenHash userId none s.users }

/-! ### The routes -/

inductive Endpoint where
  | login
  | refresh
  | logout
  deriving DecidableEq, Repr

def Endpoint.path : Endpoint → String
  | .login => "/api/v1/auth/login"
  | .refresh => "/api/v1/auth/refresh"
  | .logout => "/api/v1/auth/logout"

/-- A request as it reaches a route. -/
structure Request where
  endpoint : Endpoint
  query : String := ""
  idempotencyKey : Option String
  authorization : Option String := none
  requestId : Option String := none
  body : Json
  deriving DecidableEq

/-- The request as the idempotency middleware reads it. -/
def Request.http (req : Request) : HeaderIdempotency.Request where
  method := "POST"
  originalUrl := req.endpoint.path ++ req.query
  idempotencyKey := req.idempotencyKey
  body := req.body

structure Response where
  status : Nat
  body : Json
  deriving DecidableEq

def authError (status : Nat) (code message : String) : Response :=
  ⟨status, .obj [("error", .obj [("code", .str code), ("message", .str message)])]⟩

def unauthorized (req : Request) (message : String) : Response :=
  ⟨401, .obj [("error", .obj [("code", .str "unauthorized"), ("message", .str message),
    ("requestId", .str (req.requestId.getD "unknown"))])]⟩

def tokensResponse (tokens : AuthTokens) : Response :=
  ⟨200, .obj [("accessToken", .str tokens.accessToken), ("refreshToken", .str tokens.refreshToken)]⟩

def logoutResponse : Response := ⟨200, .obj [("message", .str "Logged out successfully")]⟩

/-- Does the object have no fields but these? -/
def strictFields (names : List String) : Json → Bool
  | .obj fields => fields.all fun f => names.contains f.1
  | _ => false

def loginSchema (body : Json) : Option (String × String) :=
  match body.get? "email", body.get? "password" with
  | some (.str email), some (.str password) =>
    if strictFields ["email", "password"] body ∧ p.isEmail email ∧ jsLength email ≤ 254 ∧
        8 ≤ jsLength password ∧ jsLength password ≤ 128 then some (email, password)
    else none
  | _, _ => none

def refreshSchema (body : Json) : Option String :=
  match body.get? "refreshToken" with
  | some (.str token) =>
    if strictFields ["refreshToken"] body ∧ 1 ≤ jsLength token ∧ jsLength token ≤ 1024 then some token
    else none
  | _ => none

variable (s : Sessions) (body : Json) (now : Int)

/-- The login handler. `locked` is what the lockout says once the password has
been checked: by then the new digest is stored, even if the tokens are withheld. -/
def handleLogin (locked : Bool) : Response × Sessions :=
  match loginSchema p body with
  | none => (⟨400, p.validationError body⟩, s)
  | some (email, password) =>
    match login p s email password now with
    | (none, s') => (authError 401 "invalid_credentials" "Request validation failed", s')
    | (some tokens, s') =>
      if locked then (authError 401 "invalid_credentials" "Request validation failed", s')
      else (tokensResponse tokens, s')

def handleRefresh : Response × Sessions :=
  match refreshSchema body with
  | none => (⟨400, p.validationError body⟩, s)
  | some token =>
    match refresh p s token now with
    | (none, s') => (authError 401 "invalid_refresh_token" "Invalid or expired refresh token.", s')
    | (some tokens, s') => (tokensResponse tokens, s')

/-! ### Runs -/

inductive Progress where
  /-- Past the middleware; the body is being validated. -/
  | validating (capture : Option HeaderIdempotency.Capture)
  /-- The handler has settled on its response and waits to send it. -/
  | responding (capture : Option HeaderIdempotency.Capture) (response : Response)
  | answered (response : Response)
  deriving DecidableEq

structure Exchange where
  request : Request
  progress : Progress
  deriving DecidableEq

structure Server where
  sessions : Sessions
  store : HeaderIdempotency.Store
  exchanges : List Exchange
  deriving DecidableEq

def Server.initial (users : List UserAuthRow) : Server := ⟨⟨users, 0, []⟩, .fresh, []⟩

inductive Event where
  | arrive (req : Request) (now : Int)
  /-- The handler of request `i` runs. -/
  | handle (i : Nat) (now : Int) (locked : Bool)
  /-- The response of request `i` is sent. -/
  | respond (i : Nat)
  deriving DecidableEq

/-- Store a response where the middleware asked for it. -/
def storeResponse (store : HeaderIdempotency.Store) (capture : Option HeaderIdempotency.Capture)
    (response : Response) : HeaderIdempotency.Store :=
  match capture with
  | none => store
  | some c => HeaderIdempotency.capture store c response.status response.body

variable (s : Server) (req : Request) (now : Int)

/-- The logout route: `requireAuth`, the middleware, and the handler in one go. -/
def arriveLogout : Response × Server :=
  match requireAuth (p.verify · now) req.authorization with
  | .error message => (unauthorized req message, s)
  | .ok user =>
    match HeaderIdempotency.idempotencyMiddleware p.sha256 s.store req.http now with
    | (.replay status body, store) => (⟨status, body⟩, { s with store })
    | (.conflict, store) => (⟨409, HeaderIdempotency.conflictBody⟩, { s with store })
    | (.next capture, store) =>
      (logoutResponse,
        { s with
          sessions := if user.id = "" then s.sessions else logout s.sessions user.id
          store := storeResponse store capture logoutResponse })

/-- The login and refresh routes up to the handler. -/
def arriveOther : Progress × Server :=
  match HeaderIdempotency.idempotencyMiddleware p.sha256 s.store req.http now with
  | (.replay status body, store) => (.answered ⟨status, body⟩, { s with store })
  | (.conflict, store) => (.answered ⟨409, HeaderIdempotency.conflictBody⟩, { s with store })
  | (.next capture, store) => (.validating capture, { s with store })

def arrive : Progress × Server :=
  match req.endpoint with
  | .logout => let (response, s') := arriveLogout p s req now; (.answered response, s')
  | .login | .refresh => arriveOther p s req now

def handler (s : Sessions) (req : Request) (now : Int) (locked : Bool) : Response × Sessions :=
  match req.endpoint with
  | .login => handleLogin p s req.body now locked
  | .refresh => handleRefresh p s req.body now
  | .logout => (logoutResponse, s)

def step : Event → Server
  | .arrive req now =>
    let (progress, s') := arrive p s req now
    { s' with exchanges := s'.exchanges ++ [⟨req, progress⟩] }
  | .handle i now locked =>
    match s.exchanges[i]? with
    | some ⟨req, .validating capture⟩ =>
      let (response, sessions) := handler p s.sessions req now locked
      { s with sessions, exchanges := s.exchanges.set i ⟨req, .responding capture response⟩ }
    | _ => s
  | .respond i =>
    match s.exchanges[i]? with
    | some ⟨req, .responding capture response⟩ =>
      { s with
        store := storeResponse s.store capture response
        exchanges := s.exchanges.set i ⟨req, .answered response⟩ }
    | _ => s

/-! ### The property and the condition -/

/-- No refresh token is stored for `u`. -/
def LoggedOut (users : List UserAuthRow) (u : String) : Prop :=
  ∀ row ∈ users, row.id = u → row.refreshTokenHash = none

instance (users : List UserAuthRow) (u : String) : Decidable (LoggedOut users u) :=
  inferInstanceAs (Decidable (∀ row ∈ users, _))

/-- From `old` to `s`, no refresh token has been accepted for `u` but those
issued in between; those issued to `u` before are refused. -/
structure Revoked (u : String) (old s : Sessions) : Prop where
  accepted : ∀ token now row, refreshUser p s.users token now = some row → row.id = u →
    (u, token) ∈ s.issued.drop old.issued.length
  refused : ∀ token now, (u, token) ∈ old.issued → refreshUser p s.users token now = none

/-- Every logout request answered 200 has logged its user out: no refresh token
is stored when it is answered, and none issued before is accepted later on. -/
def LogoutEffective (users : List UserAuthRow) (events : List Event) : Prop :=
  ∀ before req now after user body, events = before ++ .arrive req now :: after →
    req.endpoint = .logout → requireAuth (p.verify · now) req.authorization = .ok user →
    let s := run (step p) (Server.initial users) (before ++ [.arrive req now])
    s.exchanges.getLast? = some ⟨req, .answered ⟨200, body⟩⟩ →
      LoggedOut s.sessions.users user.id ∧
      ∀ later, later <+: after → Revoked p user.id s.sessions (run (step p) s later).sessions

/-- A logout request does not meet a stored response to a request like it, or
its user is logged out already. -/
def NoStaleReplay : Event → Prop
  | .arrive req now => req.endpoint = .logout →
      ∀ user ∈ (requireAuth (p.verify · now) req.authorization).toOption,
        HeaderIdempotency.Meets p.sha256 s.store req.http now → LoggedOut s.sessions.users user.id
  | .handle _ _ _ | .respond _ => True

instance (s : Server) : (e : Event) → Decidable (NoStaleReplay p s e)
  | .arrive req now => inferInstanceAs (Decidable (req.endpoint = .logout →
      ∀ user ∈ (requireAuth (p.verify · now) req.authorization).toOption, _ → _))
  | .handle _ _ _ | .respond _ => isTrue trivial

variable {p}

/-! ### What the service does to the sessions -/

/-- The sessions change by clearing the digest of a user and by issuing tokens. -/
inductive Evolves (p : Platform) : Sessions → Sessions → Prop where
  | refl (s : Sessions) : Evolves p s s
  | clear (s : Sessions) (u : String) : Evolves p s (logout s u)
  | issue (s : Sessions) (row : UserAuthRow) (now : Int) : Evolves p s (issueTokens p s row now).2
  | trans {a b c : Sessions} : Evolves p a b → Evolves p b c → Evolves p a c

variable (s : Sessions)

theorem evolves_login (email password : String) (now : Int) :
    Evolves p s (login p s email password now).2 := by
  unfold login
  split
  · exact .refl s
  · dsimp only
    split
    · exact .issue s _ now
    · exact .refl s

theorem evolves_refresh (token : String) (now : Int) : Evolves p s (refresh p s token now).2 := by
  unfold refresh
  split
  · exact .refl s
  · rename_i row _
    exact .trans (.clear s row.id) (.issue (logout s row.id) row now)

theorem evolves_handler (locked : Bool) : Evolves p s (handler p s req now locked).2 := by
  unfold handler
  split
  · unfold handleLogin
    split
    · exact .refl s
    · rename_i email password _
      have evolves := evolves_login (p := p) s email password now
      split
      · rename_i result
        rw [result] at evolves
        exact evolves
      · rename_i result
        rw [result] at evolves
        split <;> exact evolves
  · unfold handleRefresh
    split
    · exact .refl s
    · rename_i token _
      have evolves := evolves_refresh (p := p) s token now
      split <;> (rename_i result; rw [result] at evolves; exact evolves)
  · exact .refl s

variable {req : Request} {now : Int}

theorem arriveLogout_cases {s : Server} {user : User}
    (authenticated : requireAuth (p.verify · now) req.authorization = .ok user) :
    let out := arriveLogout p s req now
    (HeaderIdempotency.Meets p.sha256 s.store req.http now ∧ out.2.sessions = s.sessions) ∨
    (out.1.status = 409 ∧ out.2.sessions = s.sessions) ∨
    out.2.sessions = logout s.sessions user.id := by
  unfold arriveLogout
  simp only [authenticated]
  split
  · rename_i result
    exact .inl ⟨HeaderIdempotency.meets_of_replay (by rw [result]), rfl⟩
  · exact .inr (.inl ⟨rfl, rfl⟩)
  · rw [if_neg (id_ne_empty_of_requireAuth authenticated)]
    exact .inr (.inr rfl)

theorem exchanges_arriveLogout (s : Server) (req : Request) (now : Int) :
    (arriveLogout p s req now).2.exchanges = s.exchanges := by
  unfold arriveLogout
  split
  · rfl
  · split <;> rfl

theorem evolves_arrive (s : Server) (req : Request) (now : Int) :
    Evolves p s.sessions (arrive p s req now).2.sessions := by
  unfold arrive
  split
  · cases authenticated : requireAuth (p.verify · now) req.authorization with
    | error message =>
      simp only [arriveLogout, authenticated]
      exact .refl _
    | ok user =>
      rcases arriveLogout_cases (s := s) authenticated with ⟨-, same⟩ | ⟨-, same⟩ | cleared
      · exact same ▸ .refl _
      · exact same ▸ .refl _
      · exact cleared ▸ .clear _ _
  · unfold arriveOther
    split <;> exact .refl _
  · unfold arriveOther
    split <;> exact .refl _

theorem evolves_step (s : Server) (e : Event) : Evolves p s.sessions (step p s e).sessions := by
  cases e with
  | arrive req now => exact evolves_arrive s req now
  | handle i now locked =>
    simp only [step]
    split
    · exact evolves_handler _ _ _ _
    · exact .refl _
  | respond i =>
    simp only [step]
    split <;> exact .refl _

theorem evolves_run (s : Server) (events : List Event) :
    Evolves p s.sessions (run (step p) s events).sessions := by
  have keeps : ∀ s' e, Evolves p s.sessions s'.sessions → Evolves p s.sessions (step p s' e).sessions :=
    fun s' e evolves => .trans evolves (evolves_step s' e)
  exact run_invariant keeps (.refl _) events

/-! ### Issued tokens -/

variable {users : List UserAuthRow} {row : UserAuthRow}

theorem mem_setRefreshTokenHash {id : String} {hash : Option String}
    (mem : row ∈ setRefreshTokenHash id hash users) :
    (row.id = id ∧ row.refreshTokenHash = hash) ∨ (row.id ≠ id ∧ row ∈ users) := by
  obtain ⟨row', mem', rfl⟩ := List.mem_map.mp mem
  by_cases same : row'.id = id
  · rw [if_pos same]
    exact .inl ⟨same, rfl⟩
  · rw [if_neg same]
    exact .inr ⟨same, mem'⟩

theorem loggedOut_logout (u : String) : LoggedOut (logout s u).users u := by
  intro row mem same
  rcases mem_setRefreshTokenHash mem with ⟨-, cleared⟩ | ⟨other, -⟩
  · exact cleared
  · exact absurd same other

/-- `t` was signed with a draw in the given range. -/
def DrawnIn (p : Platform) (low high : Nat) (issued : String × String) : Prop :=
  ∃ k now, low ≤ k ∧ k < high ∧ issued.2 = p.signRefresh issued.1 (p.randomHex k) now

theorem DrawnIn.mono {low high high' : Nat} {issued : String × String} (le : high ≤ high')
    (drawn : DrawnIn p low high issued) : DrawnIn p low high' issued := by
  obtain ⟨k, now, ge, lt, signed⟩ := drawn
  exact ⟨k, now, ge, Nat.lt_of_lt_of_le lt le, signed⟩

/-- How the sessions have evolved since `old`, seen from user `u`: the tokens
issued since come from later draws, and a digest stored for `u` is that of one
of them. -/
structure Since (p : Platform) (u : String) (old s : Sessions) (new : List (String × String)) :
    Prop where
  issued : s.issued = old.issued ++ new
  drawn : old.drawn ≤ s.drawn
  fresh : ∀ t ∈ new, DrawnIn p old.drawn s.drawn t
  stored : ∀ row ∈ s.users, row.id = u → ∀ hash, row.refreshTokenHash = some hash →
    ∃ t, (u, t) ∈ new ∧ hash = hashRefreshToken p t

variable {u : String}

theorem since_self {s : Sessions} (loggedOut : LoggedOut s.users u) : Since p u s s [] where
  issued := by simp
  drawn := Nat.le_refl _
  fresh := by simp
  stored := by
    intro row mem same hash held
    rw [loggedOut row mem same] at held
    cases held

variable {new : List (String × String)}

theorem Since.clear {v : String} {old s : Sessions} (since : Since p u old s new) :
    Since p u old (logout s v) new where
  __ := since
  stored := by
    intro row mem same hash held
    rcases mem_setRefreshTokenHash mem with ⟨-, cleared⟩ | ⟨-, mem⟩
    · rw [cleared] at held
      cases held
    · exact since.stored row mem same hash held

theorem Since.issue {old s : Sessions} (since : Since p u old s new) (row : UserAuthRow)
    (now : Int) :
    Since p u old (issueTokens p s row now).2
      (new ++ [(row.id, p.signRefresh row.id (p.randomHex s.drawn) now)]) where
  issued := by
    simp only [issueTokens]
    rw [since.issued, List.append_assoc]
  drawn := Nat.le_succ_of_le since.drawn
  fresh := forall_mem_concat (fun t mem => (since.fresh t mem).mono (Nat.le_succ _))
    ⟨s.drawn, now, since.drawn, Nat.lt_succ_self _, rfl⟩
  stored := by
    intro row' mem same hash held
    rcases mem_setRefreshTokenHash mem with ⟨target, stored⟩ | ⟨-, mem⟩
    · rw [stored] at held
      cases held
      refine ⟨_, List.mem_append_right _ (List.mem_singleton.mpr ?_), rfl⟩
      rw [← same, target]
    · obtain ⟨t, mem, eq⟩ := since.stored row' mem same hash held
      exact ⟨t, List.mem_append_left _ mem, eq⟩

theorem Since.evolves {old s s' : Sessions} (since : Since p u old s new) (evolves : Evolves p s s')
    : ∃ new', Since p u old s' new' := by
  induction evolves generalizing new with
  | refl s => exact ⟨new, since⟩
  | clear s v => exact ⟨new, since.clear⟩
  | issue s row now => exact ⟨_, since.issue row now⟩
  | trans _ _ ih ih' =>
    obtain ⟨new', since'⟩ := ih since
    exact ih' since'

/-- Every token was issued with a draw made so far. -/
theorem drawnIn_of_evolves {s s' : Sessions} (evolves : Evolves p s s')
    (drawn : ∀ t ∈ s.issued, DrawnIn p 0 s.drawn t) : ∀ t ∈ s'.issued, DrawnIn p 0 s'.drawn t := by
  induction evolves with
  | refl s | clear s v => exact drawn
  | issue s row now =>
    exact forall_mem_concat (fun t mem => (drawn t mem).mono (Nat.le_succ _))
      ⟨s.drawn, now, Nat.zero_le _, Nat.lt_succ_self _, rfl⟩
  | trans _ _ ih ih' => exact ih' (ih drawn)

/-! ### Acceptance -/

theorem refreshUser_eq_some {token : String} (accepted : refreshUser p users token now = some row) :
    row ∈ users ∧ (∃ payload, p.verify token now = .ok payload ∧ payload.sub = some row.id) ∧
    ∃ hash, row.refreshTokenHash = some hash ∧
      fromHex (hashRefreshToken p token) = fromHex hash := by
  unfold refreshUser at accepted
  split at accepted
  · cases accepted
  · rename_i payload verified
    split at accepted
    · cases accepted
    · rename_i userId hasSub
      split at accepted
      · cases accepted
      · rename_i row' found
        split at accepted
        · cases accepted
        · rename_i hash hasHash
          split at accepted
          · rename_i same
            cases accepted
            have named : row.id = userId := by simpa using List.find?_some found
            refine ⟨List.mem_of_find?_eq_some found, ⟨payload, verified, ?_⟩, hash, ?_, same⟩
            · rw [named]
              exact (Option.filter_eq_some_iff.mp hasSub).1
            · exact (Option.filter_eq_some_iff.mp hasHash).1
          · cases accepted

theorem eq_of_hashRefreshToken {token t : String}
    (same : fromHex (hashRefreshToken p token) = fromHex (hashRefreshToken p t)) : token = t := by
  simp only [hashRefreshToken, sha256Hex, fromHex_toHex] at same
  exact p.sha256_injective same

theorem Since.revoked {old s : Sessions} (since : Since p u old s new)
    (drawn : ∀ t ∈ old.issued, DrawnIn p 0 old.drawn t) : Revoked p u old s := by
  have accepted : ∀ token now row, refreshUser p s.users token now = some row → row.id = u →
      (u, token) ∈ new := by
    intro token now row accept same
    obtain ⟨mem, -, hash, held, digests⟩ := refreshUser_eq_some accept
    obtain ⟨t, isNew, rfl⟩ := since.stored row mem same hash held
    rw [eq_of_hashRefreshToken digests]
    exact isNew
  refine ⟨?_, ?_⟩
  · intro token now row accept same
    rw [since.issued, List.drop_left]
    exact accepted token now row accept same
  · intro token now before
    cases accept : refreshUser p s.users token now with
    | none => rfl
    | some row =>
      obtain ⟨-, ⟨payload, verified, sub⟩, -⟩ := refreshUser_eq_some accept
      obtain ⟨k, n, -, early, signed⟩ := drawn _ before
      dsimp only at signed
      have owner : row.id = u := by
        rw [signed] at verified
        exact Option.some.inj (sub.symm.trans (p.sub_of_verify verified))
      obtain ⟨k', n', late, -, signed'⟩ := since.fresh _ (accepted token now row accept owner)
      have same := p.draws_differ (signed.symm.trans signed')
      omega

/-! ### The main result -/

theorem step_logout {s : Server} (isLogout : req.endpoint = .logout) :
    step p s (.arrive req now) =
      { (arriveLogout p s req now).2 with
        exchanges := s.exchanges ++ [⟨req, .answered (arriveLogout p s req now).1⟩] } := by
  simp [step, arrive, isLogout, exchanges_arriveLogout]

/-- The step that answers a logout request 200 leaves its user logged out. -/
theorem loggedOut_of_answered {s : Server} {user : User} {body : Json}
    (isLogout : req.endpoint = .logout)
    (authenticated : requireAuth (p.verify · now) req.authorization = .ok user)
    (condition : NoStaleReplay p s (.arrive req now))
    (answered : (step p s (.arrive req now)).exchanges.getLast? =
      some ⟨req, .answered ⟨200, body⟩⟩) :
    LoggedOut (step p s (.arrive req now)).sessions.users user.id := by
  rw [step_logout isLogout] at answered ⊢
  have response : (arriveLogout p s req now).1 = ⟨200, body⟩ := by simpa using answered
  rcases arriveLogout_cases (s := s) authenticated with ⟨met, same⟩ | ⟨conflict, -⟩ | cleared
  · rw [same]
    exact condition isLogout user (by rw [authenticated]; rfl) met
  · rw [response] at conflict
    cases conflict
  · rw [cleared]
    exact loggedOut_logout s.sessions user.id

/-- In every run in which no logout request of a user with a session meets a
stored response to a request like it, logout is effective. -/
theorem logout_is_effective (p : Platform) (users : List UserAuthRow) (events : List Event)
    (fresh : Along (step p) (NoStaleReplay p) (Server.initial users) events) :
    LogoutEffective p users events := by
  intro before req now after user body split isLogout authenticated s answered
  subst split
  have reached : s = step p (run (step p) (Server.initial users) before) (.arrive req now) := by
    simp [s, run_append]
  have condition := ((along_append _ before _).mp fresh).2.1
  have drawn : ∀ t ∈ s.sessions.issued, DrawnIn p 0 s.sessions.drawn t :=
    drawnIn_of_evolves (evolves_run (Server.initial users) (before ++ [.arrive req now])) (by
      intro t mem
      cases mem)
  have loggedOut : LoggedOut s.sessions.users user.id := by
    rw [reached] at answered ⊢
    exact loggedOut_of_answered isLogout authenticated condition answered
  refine ⟨loggedOut, fun later _ => ?_⟩
  obtain ⟨new, since⟩ := (since_self loggedOut).evolves (evolves_run s later)
  exact since.revoked drawn

/-! ### A small platform -/

/-- The random value of draw `k`: `k` strokes. -/
def strokes (k : Nat) : String := String.ofList (List.replicate k '|')

/-- A token names its user after the random value. -/
def strokeToken (u r : String) : String := r ++ ":" ++ u

/-- What follows the strokes and the colon. -/
def strokeUser (token : String) : String := String.ofList ((token.toList.dropWhile (· = '|')).drop 1)

theorem toList_strokeToken (u : String) (k : Nat) :
    (strokeToken u (strokes k)).toList = List.replicate k '|' ++ ':' :: u.toList := by
  simp [strokeToken, strokes]

theorem strokes_differ {v : String} {k k' : Nat}
    (same : strokeToken u (strokes k) = strokeToken v (strokes k')) : k = k' := by
  have lengths := congrArg (fun t => (t.toList.takeWhile (· = '|')).length) same
  simpa [toList_strokeToken, List.takeWhile_append] using lengths

theorem strokeUser_strokeToken (u : String) (k : Nat) : strokeUser (strokeToken u (strokes k)) = u := by
  rw [strokeUser, toList_strokeToken]
  simp

/-- A platform on which tokens never expire and every password hashes to one byte. -/
def strokePlatform : Platform where
  sha256 := utf8Bytes
  scrypt := fun _ _ => [1]
  randomHex := strokes
  signAccess := fun u _ _ _ => strokeToken u ""
  signRefresh := fun u r _ => strokeToken u r
  verify := fun token _ => .ok ⟨some (strokeUser token), some "mail", some "client"⟩
  toLowerCase := id
  isEmail := fun _ => true
  validationError := id
  sha256_injective := utf8Bytes_injective
  draws_differ := strokes_differ
  sub_of_verify := by
    intro u k n now payload verified
    cases verified
    rw [strokeUser_strokeToken]

def sampleUser (id email : String) : UserAuthRow := ⟨id, email, "client", some "salt:01", none⟩

def loginRequest (email : String) : Request where
  endpoint := .login
  idempotencyKey := none
  body := .obj [("email", .str email), ("password", .str "password")]

def logoutRequest (u key : String) : Request where
  endpoint := .logout
  idempotencyKey := some key
  authorization := some ("Bearer :" ++ u)
  body := .obj []

/-- `u1` and `u2` log in, and then both log out, with the given keys. -/
def twoLogouts (key key' : String) : List Event :=
  [.arrive (loginRequest "a") 0, .handle 0 1 false, .respond 0, .arrive (loginRequest "b") 2,
    .handle 1 3 false, .respond 1, .arrive (logoutRequest "u1" key) 4,
    .arrive (logoutRequest "u2" key') 5]

theorem logout_is_effective_twice :
    Along (step strokePlatform) (NoStaleReplay strokePlatform)
      (Server.initial [sampleUser "u1" "a", sampleUser "u2" "b"]) (twoLogouts "k1" "k2") ∧
    LogoutEffective strokePlatform [sampleUser "u1" "a", sampleUser "u2" "b"] (twoLogouts "k1" "k2") :=
  have fresh : Along (step strokePlatform) (NoStaleReplay strokePlatform)
      (Server.initial [sampleUser "u1" "a", sampleUser "u2" "b"]) (twoLogouts "k1" "k2") := by
    decide +kernel
  ⟨fresh, logout_is_effective strokePlatform _ _ fresh⟩

/-- When `u2` logs out with the key `u1` used a moment before, the stored
response is sent and the refresh token of `u2` stays good. -/
theorem logout_replayed_for_other_user :
    ¬ LogoutEffective strokePlatform [sampleUser "u1" "a", sampleUser "u2" "b"]
      (twoLogouts "k1" "k1") := by
  intro effective
  have answered := effective ((twoLogouts "k1" "k1").take 7) (logoutRequest "u2" "k1") 5 []
    ⟨"u2", "mail", .client⟩ (.obj [("message", .str "Logged out successfully")])
    (by decide +kernel) rfl (by decide +kernel) (by decide +kernel)
  exact absurd answered.1 (by decide +kernel)

end TalentTrust.Auth
