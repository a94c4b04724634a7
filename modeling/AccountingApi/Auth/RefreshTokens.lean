import AccountingApi.Auth.Schema

/-!
# Refresh tokens

A session is a family of refresh tokens. The token a client presents is consumed and replaced by a
successor of the same family; presenting a consumed one again revokes the family.

## Main definitions

* `RefreshTokenService.issue`, `rotate`, `revokeFamilyByJti`, `revokeAllForUser`, `purgeExpired`
* `AuthService.login`, `refresh`, `logout`, `logoutAll`
-/

namespace AccountingApi.Auth

open ReadCommitted

/-- A token and the family it belongs to. -/
structure IssuedToken where
  jti : Uuid
  familyId : Uuid
deriving DecidableEq

/-- The row of a token that has just been issued. -/
def RefreshToken.issued (userId familyId : Uuid) (expiresAt : Timestamp) : RefreshToken :=
  ⟨userId, familyId, .active, expiresAt, none, none⟩

/-- The row of a token that has been replaced. -/
def RefreshToken.consume (t : RefreshToken) (now : Timestamp) (newJti : Uuid) : RefreshToken :=
  { t with status := .consumed, consumedAt := some now, replacedById := some newJti }

def RefreshToken.revoke (t : RefreshToken) : RefreshToken := { t with status := .revoked }

namespace RefreshTokenService

/-- `ttl` is the configured lifetime of a refresh token. -/
def expiresAt (ttl : ℕ) (now : Timestamp) : Timestamp := now + ttl

/-- Start a new family with its first token. -/
def issue (ttl : ℕ) (userId jti familyId : Uuid) (now : Timestamp) : Program IssuedToken := do
  Prog.transaction (insertToken jti (.issued userId familyId (expiresAt ttl now)))
  pure ⟨jti, familyId⟩

/-- How a rotation ends: it is no error inside the transaction, so that the revocation of a family is
committed. -/
inductive RotateResult where
  | ok (token : IssuedToken)
  | invalid
  | reuse
deriving DecidableEq

/-- The new token, or the error every other end of a rotation is answered with. -/
def RotateResult.orThrow : RotateResult → Program IssuedToken
  | .ok token => pure token
  | .invalid => .throw (.unauthorized "Invalid refresh token" [])
  | .reuse => .throw (.unauthorized "Invalid refresh token" [])

/-- All tokens of a family, or of a user, revoked. -/
def revokeWhere (scan : ScanOrder Key) (p : RefreshToken → Bool) : Program ℕ :=
  updateTokens scan p fun t => some t.revoke

/-- The transaction of a rotation. -/
def rotateInTx (ttl : ℕ) (jti userId newJti : Uuid) (scan : ScanOrder Key) (now later : Timestamp) :
    Program RotateResult := do
  let db ← forUpdate (.refreshToken jti)
  match Db.refreshToken db jti with
  | none => pure .invalid
  | some row =>
    if row.userId ≠ userId ∨ row.status = .revoked then pure .invalid
    else if row.status = .consumed then do
      let _ ← revokeWhere scan fun t => t.familyId = row.familyId
      pure .reuse
    else do
      -- the lock on the row is still held, so the update finds it as it was read
      Prog.write (.refreshToken jti) (some (row.consume now newJti))
      insertToken newJti (.issued userId row.familyId (expiresAt ttl later))
      pure (.ok ⟨newJti, row.familyId⟩)

/-- Consume an active token and issue its successor, or revoke the family of a consumed one. -/
def rotate (ttl : ℕ) (jti userId newJti : Uuid) (scan : ScanOrder Key) (now later : Timestamp) :
    Program IssuedToken := do
  let result ← Prog.transaction (rotateInTx ttl jti userId newJti scan now later)
  result.orThrow

/-- Revoke the family of a token; nothing happens when the token is unknown. -/
def revokeFamilyByJti (jti : Uuid) (scan : ScanOrder Key) : Program Unit := do
  let db ← select .refreshToken
  match Db.refreshToken db jti with
  | none => pure ()
  | some row =>
    let _ ← Prog.transaction (revokeWhere scan fun t => t.familyId = row.familyId)
    pure ()

/-- Revoke every session of a user. -/
def revokeAllForUser (userId : Uuid) (scan : ScanOrder Key) : Program Unit := do
  let _ ← Prog.transaction (revokeWhere scan fun t => t.userId = userId)
  pure ()

/-- Delete the tokens past their expiry; their number is returned. -/
def purgeExpired (scan : ScanOrder Key) (now : Timestamp) : Program ℕ :=
  Prog.transaction (updateTokens scan (fun t => t.expiresAt < now) fun _ => none)

end RefreshTokenService

/-! ## Sessions -/

/-- What a verified refresh token carries. -/
structure RefreshJwtPayload where
  sub : Uuid
  jti : Uuid
deriving DecidableEq

/-- Whether a password matches a stored hash; without a user it is compared with a decoy. -/
def verifyPasswordOrDecoy (verify : String → Bool) (u : Option User) : Bool :=
  u.any fun u => verify u.passwordHash

namespace AuthService

/-- `verify` says which stored hashes the given password matches. -/
def login (ttl : ℕ) (email : String) (verify : String → Bool) (jti familyId : Uuid)
    (now : Timestamp) : Program (Uuid × Uuid) := do
  let failure := Failure.unauthorized "Invalid credentials" []
  let db ← select .userByEmail
  let user := (Db.usersWithEmail db email).find? fun x => x.2.deletedAt.isNone
  let valid := verifyPasswordOrDecoy verify (user.map (·.2))
  let x ← Prog.orThrow user failure
  Prog.ensure (x.2.isActive = true ∧ valid = true) failure
  let token ← RefreshTokenService.issue ttl x.1 jti familyId now
  pure (x.1, token.jti)

/-- `payload` is what the token was found to carry, if its signature and its expiry are in order. -/
def refresh (ttl : ℕ) (payload : Option RefreshJwtPayload) (newJti : Uuid) (scan : ScanOrder Key)
    (now later : Timestamp) : Program (Uuid × Uuid) := do
  let payload ← Prog.orThrow payload (.unauthorized "Invalid refresh token" [])
  let db ← select .user
  let user ← Prog.orThrow (Db.liveUser db payload.sub) (.unauthorized "Invalid refresh token" [])
  Prog.ensure (user.isActive = true) (.unauthorized "Invalid refresh token" [])
  let token ← RefreshTokenService.rotate ttl payload.jti payload.sub newJti scan now later
  pure (payload.sub, token.jti)

/-- Revoke the session of a token; an invalid token has nothing to revoke. -/
def logout (payload : Option RefreshJwtPayload) (scan : ScanOrder Key) : Program Unit :=
  match payload with
  | none => pure ()
  | some payload => RefreshTokenService.revokeFamilyByJti payload.jti scan

def logoutAll (userId : Uuid) (scan : ScanOrder Key) : Program Unit :=
  RefreshTokenService.revokeAllForUser userId scan

end AuthService

end AccountingApi.Auth
