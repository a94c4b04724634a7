import AccountingApi.Auth.Users

/-!
# The requests on users and sessions

The calls of the modelled services, with the values drawn at random, the clock readings and the order in
which a statement over many rows comes across them.

## Main definitions

* `Request`, `code`: the requests and their programs
* `Request.drawn`: the random keys a request draws
* `Server`, `Commit`: the servers that run them
-/

namespace AccountingApi.Auth

open ReadCommitted

/-- A call of a service. -/
inductive Request where
  | issue (userId jti familyId : Uuid) (now : Timestamp)
  | rotate (jti userId newJti : Uuid) (scan : ScanOrder Key) (now later : Timestamp)
  | revokeFamilyByJti (jti : Uuid) (scan : ScanOrder Key)
  | revokeAllForUser (userId : Uuid) (scan : ScanOrder Key)
  | purgeExpired (scan : ScanOrder Key) (now : Timestamp)
  | login (email : String) (verify : String → Bool) (jti familyId : Uuid) (now : Timestamp)
  | refresh (payload : Option RefreshJwtPayload) (newJti : Uuid) (scan : ScanOrder Key)
      (now later : Timestamp)
  | logout (payload : Option RefreshJwtPayload) (scan : ScanOrder Key)
  | logoutAll (userId : Uuid) (scan : ScanOrder Key)
  | changePassword (id : Uuid) (verify : String → Bool) (newHash : String) (scan : ScanOrder Key)
  | createUser (dto : CreateUserDto) (passwordHash : String) (newId : Uuid)
  | updateUser (actorId id : Uuid) (dto : UpdateUserDto) (scan : ScanOrder Key)
  | resetPassword (id : Uuid) (passwordHash : String) (scan : ScanOrder Key)
  | removeUser (actorId id : Uuid) (scan : ScanOrder Key) (now : Timestamp)

/-- The keys of refresh tokens and of their families that a request draws at random. -/
def Request.drawn : Request → List Uuid
  | .issue _ jti familyId _ => [jti, familyId]
  | .rotate _ _ newJti _ _ _ => [newJti]
  | .login _ _ jti familyId _ => [jti, familyId]
  | .refresh _ newJti _ _ _ => [newJti]
  | _ => []

/-- What a request that succeeds answers with. -/
inductive Response where
  | token (token : IssuedToken)
  | tokens (userId jti : Uuid)
  | user (user : UserResponse)
  | count (n : ℕ)
  | noContent

/-- A program's value as the answer. -/
def respond {α : Type} (f : α → Response) (p : Program α) : Program Response := do
  let a ← p
  pure (f a)

/-- The program of a request; `ttl` is the configured lifetime of a refresh token. -/
def code (ttl : ℕ) : Request → Program Response
  | .issue userId jti familyId now =>
    respond .token (RefreshTokenService.issue ttl userId jti familyId now)
  | .rotate jti userId newJti scan now later =>
    respond .token (RefreshTokenService.rotate ttl jti userId newJti scan now later)
  | .revokeFamilyByJti jti scan =>
    respond (fun _ => .noContent) (RefreshTokenService.revokeFamilyByJti jti scan)
  | .revokeAllForUser userId scan =>
    respond (fun _ => .noContent) (RefreshTokenService.revokeAllForUser userId scan)
  | .purgeExpired scan now => respond .count (RefreshTokenService.purgeExpired scan now)
  | .login email verify jti familyId now =>
    respond (fun x => .tokens x.1 x.2) (AuthService.login ttl email verify jti familyId now)
  | .refresh payload newJti scan now later =>
    respond (fun x => .tokens x.1 x.2) (AuthService.refresh ttl payload newJti scan now later)
  | .logout payload scan => respond (fun _ => .noContent) (AuthService.logout payload scan)
  | .logoutAll userId scan => respond (fun _ => .noContent) (AuthService.logoutAll userId scan)
  | .changePassword id verify newHash scan =>
    respond (fun _ => .noContent) (AuthService.changePassword id verify newHash scan)
  | .createUser dto passwordHash newId =>
    respond .user (UserAdminService.createWithTempPassword dto passwordHash newId)
  | .updateUser actorId id dto scan => respond .user (UserAdminService.update actorId id dto scan)
  | .resetPassword id passwordHash scan =>
    respond .user (UserAdminService.resetPassword id passwordHash scan)
  | .removeUser actorId id scan now =>
    respond (fun _ => .noContent) (UserAdminService.remove actorId id scan now)

/-- The servers that run these requests. -/
abbrev Server := ReadCommitted.Server Row LockName Query Failure Response Request

/-- A commit of such a server. -/
abbrev Commit := ReadCommitted.Commit Row LockName Query Request

end AccountingApi.Auth
