import TalentTrust.Auth.Session

/-!
Refresh-token rotation: `AuthService.register`, `login`, `refresh` and `logout`
over the `users` table.

The four calls are synchronous up to their result, so a run is a list of calls.
Every call that issues a refresh token stores its digest in the row of the user,
`refresh` and `logout` clear it first, and nothing else writes it. The stored
digest is therefore that of the last token issued to the user since the last
clearing (`Rotating`), and a token is accepted only if it is that one
(`refresh_tokens_rotate`).
-/

namespace TalentTrust.Auth.Rotation

open TalentTrust.Lib

/-! ### Registration -/

/-- The columns of `users` that the sessions hold, and the column `username`. -/
structure Accounts where
  sessions : Sessions
  usernames : List String
  deriving DecidableEq

inductive Failure where
  | duplicateEmail
  | invalidCredentials
  | invalidRefreshToken
  /-- A failed constraint of the table, or `JWT_SECRET is not configured`. -/
  | unexpected
  deriving DecidableEq, Repr

/-- SQLite's `lower(trim(email))`: spaces only, and ASCII letters only. -/
def indexedEmail (email : String) : String :=
  let front := email.toList.dropWhile (· = ' ')
  String.ofList (((front.reverse.dropWhile (· = ' ')).reverse).map Char.toLower)

/-- `CHECK (role IN ('client', 'freelancer', 'both'))`. -/
def checkedRoles : List String := ["client", "freelancer", "both"]

/-- `INSERT INTO users`; `none` is a failed constraint. The index on the
normalised email also covers the constraint on the email itself. -/
def insertUser (a : Accounts) (row : UserAuthRow) (username : String) : Option Accounts :=
  if (∃ other ∈ a.sessions.users, other.id = row.id ∨
        indexedEmail other.email = indexedEmail row.email) ∨
      username ∈ a.usernames ∨ row.role ∉ checkedRoles then none
  else some
    { sessions := { a.sessions with users := a.sessions.users ++ [row] }
      usernames := a.usernames ++ [username] }

variable (p : Platform)

def hashPassword (password salt : String) : String := salt ++ ":" ++ toHex (p.scrypt password salt)

/-- What a registration is given, and the random values it draws: the id of the
account and the salt. -/
structure Registration where
  email : String
  password : String
  username : String
  role : Option String := none
  id : String
  salt : String
  deriving DecidableEq

def Registration.row (r : Registration) : UserAuthRow where
  id := r.id
  email := normalizeEmail p r.email
  role := r.role.getD "client"
  passwordHash := some (hashPassword p r.password r.salt)
  refreshTokenHash := none

/-- `register`. `secret` says whether `JWT_SECRET` is set; without it the row is
there when `issueTokens` throws. -/
def register (a : Accounts) (r : Registration) (secret : Bool) (now : Int) :
    Except Failure AuthTokens × Accounts :=
  if ∃ row ∈ a.sessions.users, row.email = normalizeEmail p r.email then (.error .duplicateEmail, a)
  else
    match insertUser a (r.row p) r.username with
    | none => (.error .unexpected, a)
    | some inserted =>
      if secret then
        let (tokens, sessions) := issueTokens p inserted.sessions (r.row p) now
        (.ok tokens, { inserted with sessions })
      else (.error .unexpected, inserted)

/-! ### Calls of the service -/

/-- `login`, which throws between the check of the password and the update when
there is no secret to sign with. -/
def loginCall (s : Sessions) (email password : String) (secret : Bool) (now : Int) :
    Except Failure AuthTokens × Sessions :=
  match login p s email password now with
  | (none, s') => (.error .invalidCredentials, s')
  | (some tokens, s') => if secret then (.ok tokens, s') else (.error .unexpected, s)

/-- The row `refresh` accepts the token for. Without a secret no token verifies. -/
def acceptedFor (users : List UserAuthRow) (token : String) (secret : Bool) (now : Int) :
    Option UserAuthRow :=
  if secret then refreshUser p users token now else none

def refreshCall (s : Sessions) (token : String) (secret : Bool) (now : Int) :
    Except Failure AuthTokens × Sessions :=
  if secret then
    match refresh p s token now with
    | (none, s') => (.error .invalidRefreshToken, s')
    | (some tokens, s') => (.ok tokens, s')
  else (.error .invalidRefreshToken, s)

inductive Call where
  | register (r : Registration) (secret : Bool) (now : Int)
  | login (email password : String) (secret : Bool) (now : Int)
  | refresh (token : String) (secret : Bool) (now : Int)
  | logout (userId : String)
  deriving DecidableEq

/-- What has happened to refresh tokens, as history. -/
inductive Occurrence where
  | issued (u token : String)
  /-- `refresh` accepted the token for `u`. -/
  | consumed (u token : String)
  | revoked (u : String)
  deriving DecidableEq

/-- The table, and the history, newest first. -/
structure State where
  accounts : Accounts
  history : List Occurrence
  deriving DecidableEq

/-- Accounts of which none has a session. -/
def start (users : List UserAuthRow) (usernames : List String) : State := ⟨⟨⟨users, 0, []⟩, usernames⟩, []⟩

/-- The tokens issued from `s` to `s'`. -/
def issuedBetween (s s' : Sessions) : List Occurrence :=
  (s'.issued.drop s.issued.length).reverse.map fun issue => .issued issue.1 issue.2

def step (s : State) : Call → State
  | .register r secret now =>
    let accounts := (register p s.accounts r secret now).2
    { accounts, history := issuedBetween s.accounts.sessions accounts.sessions ++ s.history }
  | .login email password secret now =>
    let sessions := (loginCall p s.accounts.sessions email password secret now).2
    { accounts := { s.accounts with sessions }
      history := issuedBetween s.accounts.sessions sessions ++ s.history }
  | .refresh token secret now =>
    let sessions := (refreshCall p s.accounts.sessions token secret now).2
    { accounts := { s.accounts with sessions }
      history := issuedBetween s.accounts.sessions sessions ++
        match acceptedFor p s.accounts.sessions.users token secret now with
        | none => s.history
        | some row => .consumed row.id token :: s.history }
  | .logout userId =>
    { accounts := { s.accounts with sessions := logout s.accounts.sessions userId }
      history := .revoked userId :: s.history }

/-! ### The property -/

/-- The token most recently issued to `u`, unless it has been consumed or
revoked since. -/
def latest (u : String) : List Occurrence → Option String
  | [] => none
  | .issued v token :: earlier => if v = u then some token else latest u earlier
  | .consumed v _ :: earlier => if v = u then none else latest u earlier
  | .revoked v :: earlier => if v = u then none else latest u earlier

def consumedTokens (history : List Occurrence) : List String :=
  history.filterMap fun
    | .consumed _ token => some token
    | .issued _ _ | .revoked _ => none

def issuedTokens (history : List Occurrence) : List (String × String) :=
  history.filterMap fun
    | .issued u token => some (u, token)
    | .consumed _ _ | .revoked _ => none

structure Rotates (s : State) : Prop where
  /-- Only the latest token of a user is accepted for that user. -/
  accepted : ∀ token secret now row,
    acceptedFor p s.accounts.sessions.users token secret now = some row →
    latest row.id s.history = some token
  /-- It is accepted, as long as it verifies. -/
  kept : ∀ u token now payload, latest u s.history = some token → u ≠ "" →
    p.verify token now = .ok payload →
    ∃ row, acceptedFor p s.accounts.sessions.users token true now = some row ∧ row.id = u
  unique : ∀ token token' secret secret' now now' row row',
    acceptedFor p s.accounts.sessions.users token secret now = some row →
    acceptedFor p s.accounts.sessions.users token' secret' now' = some row' →
    row.id = row'.id → token = token'
  /-- No token has been accepted twice, and none that was is accepted again. -/
  once : (consumedTokens s.history).Nodup
  spent : ∀ token ∈ consumedTokens s.history, ∀ secret now,
    acceptedFor p s.accounts.sessions.users token secret now = none
  /-- A refresh that fails leaves the table as it is. -/
  failed : ∀ token secret now failure,
    (refreshCall p s.accounts.sessions token secret now).1 = .error failure →
    (step p s (.refresh token secret now)).accounts = s.accounts

variable {p}

/-! ### The history of a user -/

variable {token : String} {u : String}

theorem latest_mem : ∀ {history : List Occurrence},
    latest u history = some token → (u, token) ∈ issuedTokens history := by
  intro history
  induction history with
  | nil =>
    intro isLatest
    cases isLatest
  | cons o earlier ih =>
    intro isLatest
    cases o with
    | issued v t =>
      by_cases same : v = u
      · rw [latest, if_pos same] at isLatest
        cases isLatest
        rw [← same]
        exact List.mem_cons_self
      · rw [latest, if_neg same] at isLatest
        exact List.mem_cons_of_mem _ (ih isLatest)
    | consumed v t | revoked v =>
      rw [latest] at isLatest
      split at isLatest
      · cases isLatest
      · exact ih isLatest

/-- The table agrees with the history: a stored digest is that of the latest
token of the user, every token has a draw of its own, and consumed tokens are
not the latest of anybody. -/
structure Rotating (p : Platform) (s : Sessions) (history : List Occurrence) : Prop where
  stored : ∀ row ∈ s.users,
    row.refreshTokenHash = (latest row.id history).map (hashRefreshToken p)
  owned : ∀ u token, latest u history = some token → ∃ row ∈ s.users, row.id = u
  drawn : ∀ issue ∈ issuedTokens history, DrawnIn p 0 s.drawn issue
  distinct : ((issuedTokens history).map (·.2)).Nodup
  once : (consumedTokens history).Nodup
  issued : ∀ token ∈ consumedTokens history, token ∈ (issuedTokens history).map (·.2)
  spent : ∀ token ∈ consumedTokens history, ∀ u, latest u history ≠ some token

variable {history : List Occurrence} {s : Sessions}

theorem Rotating.fresh (inv : Rotating p s history) (u : String) (now : Int) :
    p.signRefresh u (p.randomHex s.drawn) now ∉ (issuedTokens history).map (·.2) := by
  intro mem
  obtain ⟨issue, isIssued, same⟩ := List.mem_map.mp mem
  obtain ⟨k, n, -, below, signed⟩ := inv.drawn issue isIssued
  have draws := p.draws_differ (signed.symm.trans same)
  omega

variable {row : UserAuthRow}

theorem Rotating.insert (inv : Rotating p s history) (new : ∀ other ∈ s.users, other.id ≠ row.id)
    (noSession : row.refreshTokenHash = none) :
    Rotating p { s with users := s.users ++ [row] } history where
  stored := by
    intro row' mem
    rcases List.mem_append.mp mem with mem | mem
    · exact inv.stored row' mem
    · rw [List.mem_singleton.mp mem, noSession]
      -- Whoever has been issued a token is in the table.
      cases isLatest : latest row.id history with
      | none => rfl
      | some token =>
        obtain ⟨other, mem, same⟩ := inv.owned row.id token isLatest
        exact absurd same (new other mem)
  owned := by
    intro u token isLatest
    obtain ⟨row', mem, same⟩ := inv.owned u token isLatest
    exact ⟨row', List.mem_append_left _ mem, same⟩
  __ := inv

variable {users : List UserAuthRow}

theorem exists_mem_setRefreshTokenHash {id : String} {hash : Option String}
    (present : ∃ row ∈ users, row.id = u) :
    ∃ row ∈ setRefreshTokenHash id hash users, row.id = u := by
  obtain ⟨row, mem, same⟩ := present
  refine ⟨_, List.mem_map.mpr ⟨row, mem, rfl⟩, ?_⟩
  split <;> exact same

variable (inv : Rotating p s history)

include inv

/-- Clearing the digest of `u`, recorded by an occurrence that ends the latest
token of `u`. -/
theorem Rotating.clear {o : Occurrence}
    (ends : ∀ v, latest v (o :: history) = if u = v then none else latest v history)
    (sameIssued : issuedTokens (o :: history) = issuedTokens history)
    (once : (consumedTokens (o :: history)).Nodup)
    (consumed : ∀ token ∈ consumedTokens (o :: history), token ∈ consumedTokens history ∨
      latest u history = some token) :
    Rotating p (logout s u) (o :: history) where
  stored := by
    intro row mem
    rw [ends]
    rcases mem_setRefreshTokenHash mem with ⟨target, cleared⟩ | ⟨other, mem⟩
    · rw [cleared, if_pos target.symm]
      rfl
    · rw [if_neg (fun same => other same.symm)]
      exact inv.stored row mem
  owned := by
    intro v token isLatest
    rw [ends] at isLatest
    split at isLatest
    · cases isLatest
    · exact exists_mem_setRefreshTokenHash (inv.owned v token isLatest)
  drawn := by
    rw [sameIssued]
    exact inv.drawn
  distinct := by
    rw [sameIssued]
    exact inv.distinct
  once := once
  issued := by
    intro token mem
    rw [sameIssued]
    rcases consumed token mem with before | isLatest
    · exact inv.issued token before
    · exact List.mem_map.mpr ⟨_, latest_mem isLatest, rfl⟩
  spent := by
    intro token mem v isLatest
    rw [ends] at isLatest
    split at isLatest
    · cases isLatest
    · rename_i other
      rcases consumed token mem with before | wasLatest
      · exact inv.spent token before v isLatest
      · -- One token is not issued to two users.
        have same := List.inj_on_of_nodup_map inv.distinct (latest_mem wasLatest)
          (latest_mem isLatest) rfl
        exact other (congrArg Prod.fst same)

theorem Rotating.revoke (u : String) : Rotating p (logout s u) (.revoked u :: history) :=
  inv.clear (fun _ => rfl) rfl inv.once (fun _ mem => .inl mem)

theorem Rotating.consume (isLatest : latest u history = some token) :
    Rotating p (logout s u) (.consumed u token :: history) := by
  apply inv.clear (u := u)
  · exact fun _ => rfl
  · rfl
  · refine List.nodup_cons.mpr ⟨?_, inv.once⟩
    intro spent
    exact inv.spent token spent u isLatest
  · intro t mem
    rcases List.mem_cons.mp mem with rfl | mem
    · exact .inr isLatest
    · exact .inl mem

theorem Rotating.issue (present : ∃ row' ∈ s.users, row'.id = row.id) (now : Int) :
    Rotating p (issueTokens p s row now).2
      (.issued row.id (p.signRefresh row.id (p.randomHex s.drawn) now) :: history) where
  stored := by
    intro row' mem
    rcases mem_setRefreshTokenHash mem with ⟨target, stored⟩ | ⟨other, mem⟩
    · rw [stored, latest, if_pos target.symm]
      rfl
    · rw [latest, if_neg (fun same => other same.symm)]
      exact inv.stored row' mem
  owned := by
    intro u token isLatest
    rw [latest] at isLatest
    apply exists_mem_setRefreshTokenHash
    split at isLatest
    · rename_i same
      exact same ▸ present
    · exact inv.owned u token isLatest
  drawn := by
    intro issue mem
    rcases List.mem_cons.mp mem with rfl | mem
    · exact ⟨s.drawn, now, Nat.zero_le _, Nat.lt_succ_self _, rfl⟩
    · exact (inv.drawn issue mem).mono (Nat.le_succ _)
  distinct := List.nodup_cons.mpr ⟨inv.fresh row.id now, inv.distinct⟩
  once := inv.once
  issued := fun token mem => List.mem_cons_of_mem _ (inv.issued token mem)
  spent := by
    intro token mem u isLatest
    rw [latest] at isLatest
    split at isLatest
    · cases isLatest
      exact inv.fresh row.id now (inv.issued _ mem)
    · exact inv.spent token mem u isLatest

omit inv

/-! ### Acceptance -/

variable {now : Int}

theorem Rotating.latest_of_accepted (inv : Rotating p s history)
    (accepted : refreshUser p s.users token now = some row) : latest row.id history = some token := by
  obtain ⟨mem, -, hash, held, digests⟩ := refreshUser_eq_some accepted
  have stored := inv.stored row mem
  rw [held] at stored
  cases isLatest : latest row.id history with
  | none =>
    rw [isLatest] at stored
    cases stored
  | some t =>
    rw [isLatest] at stored
    cases stored
    rw [eq_of_hashRefreshToken digests]

/-- The latest token of a user is accepted while it verifies. -/
theorem Rotating.accepted_of_latest (digests : ∀ text, p.sha256 text ≠ [])
    (inv : Rotating p s history) {payload : JwtPayload} (isLatest : latest u history = some token)
    (named : u ≠ "") (verified : p.verify token now = .ok payload) :
    ∃ row, refreshUser p s.users token now = some row ∧ row.id = u := by
  obtain ⟨k, n, -, -, signed⟩ := inv.drawn _ (latest_mem isLatest)
  have sub : payload.sub = some u := by
    rw [show token = p.signRefresh u (p.randomHex k) n from signed] at verified
    exact p.sub_of_verify verified
  obtain ⟨row, mem, same⟩ := inv.owned u token isLatest
  obtain ⟨found, isFound⟩ : ∃ found, s.users.find? (fun row => row.id = u) = some found := by
    rw [← Option.isSome_iff_exists, List.find?_isSome]
    exact ⟨row, mem, by simpa using same⟩
  have owner : found.id = u := by simpa using List.find?_some isFound
  have held := inv.stored found (List.mem_of_find?_eq_some isFound)
  rw [owner, isLatest] at held
  have digest : hashRefreshToken p token ≠ "" := by
    intro empty
    have bytes := congrArg fromHex empty
    rw [hashRefreshToken, sha256Hex, fromHex_toHex] at bytes
    exact digests token bytes
  have isSub : (some u).filter (· ≠ "") = some u := Option.filter_some_pos (by simpa using named)
  have isDigest : (some (hashRefreshToken p token)).filter (· ≠ "") = some (hashRefreshToken p token) :=
    Option.filter_some_pos (by simpa using digest)
  refine ⟨found, ?_, owner⟩
  rw [Option.map_some] at held
  simp only [refreshUser, verified, sub, isSub, isFound, held, isDigest, if_true]

/-! ### Steps and runs -/

theorem issuedBetween_self (s : Sessions) : issuedBetween s s = [] := by
  simp [issuedBetween]

theorem issuedBetween_issueTokens {s' : Sessions} (same : s'.issued = s.issued) (row : UserAuthRow)
    (now : Int) : issuedBetween s (issueTokens p s' row now).2 =
      [.issued row.id (p.signRefresh row.id (p.randomHex s'.drawn) now)] := by
  simp [issuedBetween, issueTokens, same]

theorem Rotating.register {a : Accounts} (inv : Rotating p a.sessions history) (r : Registration)
    (secret : Bool) (now : Int) : let a' := (register p a r secret now).2
    Rotating p a'.sessions (issuedBetween a.sessions a'.sessions ++ history) := by
  unfold Rotation.register
  split
  · simpa [issuedBetween_self] using inv
  · split
    · simpa [issuedBetween_self] using inv
    · rename_i inserted eq
      unfold insertUser at eq
      split at eq
      · cases eq
      · rename_i admissible
        cases eq
        have new : ∀ other ∈ a.sessions.users, other.id ≠ (r.row p).id := by
          intro other mem same
          exact admissible (.inl ⟨other, mem, .inl same⟩)
        have grown := inv.insert new rfl
        split
        · simp only
          rw [issuedBetween_issueTokens]
          · exact grown.issue ⟨r.row p, List.mem_append_right _ (List.mem_singleton_self _), rfl⟩ now
          · rfl
        · simpa [issuedBetween] using grown

theorem login_cases (s : Sessions) (email password : String) (now : Int) :
    login p s email password now = (none, s) ∨
    ∃ row ∈ s.users, login p s email password now =
      (some (issueTokens p s row now).1, (issueTokens p s row now).2) := by
  unfold login
  split
  · exact .inl rfl
  · rename_i row found
    simp only
    split
    · exact .inr ⟨row, List.mem_of_find?_eq_some found, rfl⟩
    · exact .inl rfl

theorem Rotating.login (inv : Rotating p s history) (email password : String) (secret : Bool)
    (now : Int) : let s' := (loginCall p s email password secret now).2
    Rotating p s' (issuedBetween s s' ++ history) := by
  unfold loginCall
  rcases login_cases s email password now with failed | ⟨row, mem, issued⟩
  · rw [failed]
    simpa [issuedBetween_self] using inv
  · rw [issued]
    cases secret with
    | false => simpa [issuedBetween_self] using inv
    | true =>
      simp only [if_true]
      rw [issuedBetween_issueTokens rfl]
      exact inv.issue ⟨row, mem, rfl⟩ now

variable {secret : Bool}

theorem refreshCall_of_none (refused : acceptedFor p s.users token secret now = none) :
    refreshCall p s token secret now = (.error .invalidRefreshToken, s) := by
  cases secret with
  | false => rfl
  | true =>
    simp only [acceptedFor, if_true] at refused
    simp [refreshCall, refresh, refused]

theorem refreshCall_of_some (accepted : acceptedFor p s.users token secret now = some row) :
    refreshCall p s token secret now =
      (.ok (issueTokens p (logout s row.id) row now).1, (issueTokens p (logout s row.id) row now).2) := by
  cases secret with
  | false => cases accepted
  | true =>
    simp only [acceptedFor, if_true] at accepted
    simp [refreshCall, refresh, accepted, logout]

theorem refreshUser_of_acceptedFor (accepted : acceptedFor p users token secret now = some row) :
    refreshUser p users token now = some row := by
  cases secret with
  | false => cases accepted
  | true => exact accepted

theorem Rotating.step {s : State} (inv : Rotating p s.accounts.sessions s.history) (c : Call) :
    Rotating p (Rotation.step p s c).accounts.sessions (Rotation.step p s c).history := by
  cases c with
  | register r secret now => exact inv.register r secret now
  | login email password secret now => exact inv.login email password secret now
  | logout userId => exact inv.revoke userId
  | refresh token secret now =>
    simp only [Rotation.step]
    cases accepted : acceptedFor p s.accounts.sessions.users token secret now with
    | none =>
      simp only [refreshCall_of_none accepted, issuedBetween_self]
      exact inv
    | some row =>
      have user := refreshUser_of_acceptedFor accepted
      have isLatest := inv.latest_of_accepted user
      have present := (refreshUser_eq_some user).1
      simp only [refreshCall_of_some accepted]
      rw [issuedBetween_issueTokens]
      · exact (inv.consume isLatest).issue
          (exists_mem_setRefreshTokenHash ⟨row, present, rfl⟩) now
      · rfl

theorem Rotating.rotates (digests : ∀ text, p.sha256 text ≠ []) {s : State}
    (inv : Rotating p s.accounts.sessions s.history) : Rotates p s := by
  have accepted : ∀ token secret now row,
      acceptedFor p s.accounts.sessions.users token secret now = some row →
      latest row.id s.history = some token :=
    fun _ _ _ _ accept => inv.latest_of_accepted (refreshUser_of_acceptedFor accept)
  refine ⟨accepted, ?_, ?_, inv.once, ?_, ?_⟩
  · intro u token now payload isLatest named verified
    exact inv.accepted_of_latest digests isLatest named verified
  · intro token token' secret secret' now now' row row' accept accept' same
    have isLatest := accepted token secret now row accept
    rw [same, accepted token' secret' now' row' accept'] at isLatest
    exact (Option.some.inj isLatest).symm
  · intro token mem secret now
    cases accept : acceptedFor p s.accounts.sessions.users token secret now with
    | none => rfl
    | some row => exact absurd (accepted token secret now row accept) (inv.spent token mem row.id)
  · intro token secret now failure failed
    cases accept : acceptedFor p s.accounts.sessions.users token secret now with
    | none => simp [Rotation.step, refreshCall_of_none accept]
    | some row =>
      rw [refreshCall_of_some accept] at failed
      cases failed

/-- In every run that starts without sessions, the token accepted for a user is
the one most recently issued to that user and not consumed or revoked since;
each token is accepted at most once, and a refresh that fails changes no row. -/
theorem refresh_tokens_rotate (p : Platform) (digests : ∀ text, p.sha256 text ≠ [])
    (users : List UserAuthRow) (usernames : List String)
    (noSession : ∀ row ∈ users, row.refreshTokenHash = none) (calls : List Call) :
    Rotates p (run (step p) (start users usernames) calls) := by
  let Inv : State → Prop := fun s => Rotating p s.accounts.sessions s.history
  have initial : Inv (start users usernames) :=
    { stored := noSession
      owned := fun _ _ isLatest => by cases isLatest
      drawn := fun _ mem => by cases mem
      distinct := List.nodup_nil
      once := List.nodup_nil
      issued := fun _ mem => by cases mem
      spent := fun _ mem => by cases mem }
  have keeps : ∀ s c, Inv s → Inv (step p s c) := fun _ c inv => inv.step c
  exact (run_invariant keeps initial calls).rotates digests

/-- Digests that are the bytes of the text after a zero byte. -/
def zeroPlatform : Platform :=
  { strokePlatform with
    sha256 := fun text => 0 :: utf8Bytes text
    sha256_injective := fun _ _ same => utf8Bytes_injective (List.cons.inj same).2 }

/-- An account is made, its owner logs in, refreshes, tries the old token again
and logs out. -/
def sampleCalls : List Call :=
  [.register { email := "a", password := "password", username := "ann", id := "u1", salt := "s" } true 0,
    .login "a" "password" true 1, .refresh (strokeToken "u1" (strokes 1)) true 2,
    .refresh (strokeToken "u1" (strokes 1)) true 3, .logout "u1"]

theorem refresh_tokens_rotate_sample :
    Rotates zeroPlatform (run (step zeroPlatform) (start [] []) sampleCalls) ∧
    (run (step zeroPlatform) (start [] []) sampleCalls).history =
      [.revoked "u1", .issued "u1" "||:u1", .consumed "u1" "|:u1", .issued "u1" "|:u1",
        .issued "u1" ":u1"] :=
  ⟨refresh_tokens_rotate zeroPlatform (fun _ => List.cons_ne_nil _ _) [] [] (fun _ mem => by cases mem)
      sampleCalls,
    by decide +kernel⟩

end TalentTrust.Auth.Rotation
