import FlOp.Core.Text
import FlOp.Library.Dict
import FlOp.Serving.RateLimiter
import Mathlib.Data.Finset.Basic

/-! # Bearer-token authenticators

An authenticator resolves an `Authorization` header into a principal. The open mode takes every
header, static tokens are compared in the order they are configured in, and JWTs are decoded by an
optional library. Comparing tokens and importing the library can raise other errors than a refusal.
-/

namespace FlOp.Serving

open Library FlOp.Core

/-- `AuthenticationError`: identity could not be established. -/
def authenticationError (detail : String) : SecurityError where
  detail := detail
  statusCode := 401
  headers := [("WWW-Authenticate", "Bearer")]

/-- `AuthorizationError`: identity is known but lacks the required scope. -/
def authorizationError (detail : String) : SecurityError where
  detail := detail
  statusCode := 403

/-- What the security layer may raise. -/
inductive Raised where
  | security (error : SecurityError)
  | typeError (text : String)
  | runtimeError (text : String)
  | osError (text : String)
deriving DecidableEq

def scopeWildcard : String := "*"

def anonymousSubject : String := "anonymous"

/-- The value of a claim, as far as it is read; `shown` is what `str` gives. -/
inductive Claim where
  | text (value : String)
  | items (values : List String) (shown : String)
  | other (shown : String)
deriving DecidableEq

/-- `str(claim)`. -/
def Claim.shown : Claim → String
  | .text value => value
  | .items _ shown => shown
  | .other shown => shown

abbrev Claims := Dict String Claim

/-- The resolved identity and authorities behind one request. -/
structure Principal where
  subject : String
  scopes : Finset String := ∅
  tokenId : String := ""
  claims : Claims := .empty

def Principal.hasScope (principal : Principal) (scope : String) : Bool :=
  scopeWildcard ∈ principal.scopes ∨ scope ∈ principal.scopes

def anonymousPrincipal : Principal where
  subject := anonymousSubject
  scopes := {scopeWildcard}

/-- Extract the credential from an `Authorization: Bearer <token>` header. No character beyond
ASCII has a letter of the scheme as its lower case. -/
def parseBearer (authorization : Option String) : Except SecurityError String :=
  let text := (authorization.getD "").toList
  let scheme := text.takeWhile (· ≠ ' ')
  let supplied := strip ((text.dropWhile (· ≠ ' ')).drop 1)
  if scheme.map Char.toLower ≠ ['b', 'e', 'a', 'r', 'e', 'r'] ∨ supplied = [] then
    .error (authenticationError "missing bearer token")
  else .ok (String.ofList supplied)

/-- `text.isascii()`. -/
def isAscii (text : String) : Bool := text.toList.all fun c => c.toNat < 128

/-- `secrets.compare_digest` on texts. -/
def compareDigest (a b : String) : Except Raised Bool :=
  if isAscii a ∧ isAscii b then .ok (a = b)
  else .error (.typeError "comparing strings with non-ASCII characters is not supported")

/-- A set of accepted bearer tokens, each granting a scope set. -/
structure StaticTokenAuthenticator where
  tokens : Dict String (Finset String)
  nonempty : tokens.entries ≠ []

/-- The tokens in order; one without scopes grants every route. -/
def StaticTokenAuthenticator.accepted (authenticator : StaticTokenAuthenticator) :
    List (String × Finset String) :=
  authenticator.tokens.entries.map fun entry =>
    (entry.1, if entry.2 = ∅ then {scopeWildcard} else entry.2)

/-- Validates OIDC/JWT bearer tokens; the constructor insists on an issuer and a key. -/
structure OidcJwtAuthenticator where
  issuer : String
  audience : String := ""
  jwksUrl : String := ""
  hs256Secret : String := ""
  algorithms : List String := ["RS256"]
  scopeClaims : List String := ["scope", "scp", "roles"]
  issued : issuer ≠ ""
  keyed : jwksUrl ≠ "" ∨ hs256Secret ≠ ""

/-- The arguments a token is decoded with; the expiry is always required. -/
structure JwtRequest where
  token : String
  key : String
  algorithms : List String
  audience : Option String
  issuer : String
  verifyAud : Bool

/-- The JWT library: the signing key of a token from a key server, and decoding. Either may raise,
with any exception. -/
structure JwtModule where
  signingKeyFromJwt : String → String → Option String
  decode : JwtRequest → Option Claims

/-- One of the three authenticators. -/
inductive Authenticator where
  | null
  | static (authenticator : StaticTokenAuthenticator)
  | oidc (authenticator : OidcJwtAuthenticator)

section Authenticate

variable (fingerprint : String → String)

/-- The principal of a static token. -/
def tokenPrincipal (token : String) (scopes : Finset String) : Principal where
  subject := "token:" ++ fingerprint token
  scopes := scopes
  tokenId := fingerprint token

/-- The loop over the accepted tokens. -/
def matchToken (supplied : String) : List (String × Finset String) → Except Raised Principal
  | [] => .error (.security (authenticationError "invalid bearer token"))
  | (token, scopes) :: rest => do
    if ← compareDigest supplied token then return tokenPrincipal fingerprint token scopes
    else matchToken supplied rest

/-- `text.split()`. -/
def splitWords (text : String) : List String :=
  ((text.toList.splitOnP isSpace).filter (· ≠ [])).map String.ofList

namespace OidcJwtAuthenticator

variable (authenticator : OidcJwtAuthenticator)

def extractScopes (claims : Claims) : Finset String :=
  (authenticator.scopeClaims.flatMap fun claim =>
    match claims.get? claim with
    | some (.text value) => splitWords value
    | some (.items values _) => values
    | _ => []).toFinset

def signingKey (jwt : JwtModule) (token : String) : Option String :=
  if authenticator.hs256Secret ≠ "" then some authenticator.hs256Secret
  else jwt.signingKeyFromJwt authenticator.jwksUrl token

/-- The claims of a token, unless its key or its decoding fails. -/
def decoded (jwt : JwtModule) (token : String) : Option Claims :=
  (authenticator.signingKey jwt token).bind fun key =>
    jwt.decode
      { token := token
        key := key
        algorithms := authenticator.algorithms
        audience := if authenticator.audience = "" then none else some authenticator.audience
        issuer := authenticator.issuer
        verifyAud := authenticator.audience ≠ "" }

def principal (claims : Claims) : Principal where
  subject := ((claims.get? "sub").map Claim.shown).getD ""
  scopes := authenticator.extractScopes claims
  tokenId := ((claims.get? "jti").map Claim.shown).getD ""
  claims := claims

end OidcJwtAuthenticator

variable (jwt : Option JwtModule)

/-- `authenticate`; `jwt` is the library, where it is installed. -/
def Authenticator.authenticate (authorization : Option String) :
    Authenticator → Except Raised Principal
  | .null => .ok anonymousPrincipal
  | .static authenticator =>
    match parseBearer authorization with
    | .error error => .error (.security error)
    | .ok supplied => matchToken fingerprint supplied authenticator.accepted
  | .oidc authenticator =>
    match parseBearer authorization with
    | .error error => .error (.security error)
    | .ok token =>
      match jwt with
      | none => .error (.runtimeError
          "OIDC/JWT validation requires the auth extra: pip install 'fl-op[auth]'")
      | some library =>
        match authenticator.decoded library token with
        | none => .error (.security (authenticationError "invalid or expired token"))
        | some claims => .ok (authenticator.principal claims)

/-- Whom a header identifies, as the configuration says. -/
def Authenticator.identity (authorization : Option String) : Authenticator → Option Principal
  | .null => some anonymousPrincipal
  | .static authenticator =>
    (parseBearer authorization).toOption.bind fun supplied =>
      (authenticator.accepted.find? fun entry => entry.1 = supplied).map fun entry =>
        tokenPrincipal fingerprint entry.1 entry.2
  | .oidc authenticator =>
    (parseBearer authorization).toOption.bind fun token => jwt.bind fun library =>
      (authenticator.decoded library token).map authenticator.principal

/-- A credential that can be compared with the tokens before its own, or decoded at all. -/
def Authenticator.Readable (authorization : Option String) : Authenticator → Prop
  | .null => True
  | .static authenticator => ∀ supplied, parseBearer authorization = .ok supplied →
      isAscii supplied = true ∧
        ∀ entry ∈ authenticator.accepted.takeWhile (fun entry => entry.1 ≠ supplied),
          isAscii entry.1 = true
  | .oidc _ => ∀ token, parseBearer authorization = .ok token → jwt.isSome = true

variable {fingerprint jwt} {authorization : Option String} {supplied : String}
  {accepted : List (String × Finset String)}

theorem parseBearer_error {error : SecurityError}
    (failed : parseBearer authorization = .error error) :
    error = authenticationError "missing bearer token" := by
  simp only [parseBearer] at failed
  split at failed
  · exact (Except.error.inj failed).symm
  · cases failed

theorem compareDigest_of_ascii {a b : String} (first : isAscii a = true)
    (second : isAscii b = true) : compareDigest a b = .ok (decide (a = b)) :=
  if_pos ⟨first, second⟩

theorem compareDigest_of_not_ascii {a b : String}
    (strange : ¬(isAscii a = true ∧ isAscii b = true)) : compareDigest a b =
      .error (.typeError "comparing strings with non-ASCII characters is not supported") :=
  if_neg strange

/-- Among tokens that can be compared, the first one with the credential is found. -/
theorem matchToken_eq (ascii : isAscii supplied = true)
    (clear : ∀ entry ∈ accepted.takeWhile (fun entry => entry.1 ≠ supplied),
      isAscii entry.1 = true) :
    matchToken fingerprint supplied accepted =
      match accepted.find? fun entry => entry.1 = supplied with
      | some entry => .ok (tokenPrincipal fingerprint entry.1 entry.2)
      | none => .error (.security (authenticationError "invalid bearer token")) := by
  induction accepted with
  | nil => rfl
  | cons entry rest ih =>
    obtain ⟨token, scopes⟩ := entry
    by_cases same : token = supplied
    · subst same
      rw [matchToken, compareDigest_of_ascii ascii ascii, List.find?_cons_of_pos (by simp)]
      simp [bind, Except.bind, pure, Except.pure]
    · rw [List.takeWhile_cons_of_pos (by simp [same])] at clear
      obtain ⟨first, clear⟩ := List.forall_mem_cons.mp clear
      rw [matchToken, compareDigest_of_ascii ascii first, List.find?_cons_of_neg (by simp [same]),
        ← ih clear]
      simp [bind, Except.bind, Ne.symm same]

/-- Otherwise the comparison raises before a token is found. -/
theorem matchToken_raises (filled : accepted ≠ [])
    (unreadable : ¬(isAscii supplied = true ∧
      ∀ entry ∈ accepted.takeWhile (fun entry => entry.1 ≠ supplied), isAscii entry.1 = true)) :
    ∃ text, matchToken fingerprint supplied accepted = .error (.typeError text) := by
  induction accepted with
  | nil => exact absurd rfl filled
  | cons entry rest ih =>
    obtain ⟨token, scopes⟩ := entry
    by_cases comparable : isAscii supplied = true ∧ isAscii token = true
    · have differ : token ≠ supplied := by
        rintro rfl
        refine unreadable ⟨comparable.1, ?_⟩
        rw [List.takeWhile_cons_of_neg (by simp)]
        exact fun _ absurd => (List.not_mem_nil absurd).elim
      rw [List.takeWhile_cons_of_pos (by simp [differ]), List.forall_mem_cons] at unreadable
      have rest_unreadable := fun readable : isAscii supplied = true ∧ _ =>
        unreadable ⟨readable.1, comparable.2, readable.2⟩
      have rest_filled : rest ≠ [] := by
        rintro rfl
        exact rest_unreadable ⟨comparable.1, fun _ absurd => (List.not_mem_nil absurd).elim⟩
      obtain ⟨text, raised⟩ := ih rest_filled rest_unreadable
      refine ⟨text, ?_⟩
      rw [matchToken, compareDigest_of_ascii comparable.1 comparable.2, ← raised]
      simp [bind, Except.bind, Ne.symm differ]
    · rw [matchToken, compareDigest_of_not_ascii comparable]
      exact ⟨_, rfl⟩

namespace Authenticator

variable {authenticator : Authenticator}

/-- A readable header authenticates whom it identifies, and is refused when it identifies nobody. -/
theorem authenticate_of_readable (readable : authenticator.Readable jwt authorization) :
    (∃ principal, authenticator.identity fingerprint jwt authorization = some principal ∧
      authenticator.authenticate fingerprint jwt authorization = .ok principal) ∨
    (authenticator.identity fingerprint jwt authorization = none ∧ ∃ detail,
      authenticator.authenticate fingerprint jwt authorization =
        .error (.security (authenticationError detail))) := by
  cases authenticator with
  | null => exact Or.inl ⟨anonymousPrincipal, rfl, rfl⟩
  | static configured =>
    rw [identity, authenticate]
    cases parsed : parseBearer authorization with
    | error error => exact Or.inr ⟨rfl, _, by rw [parseBearer_error parsed]⟩
    | ok supplied =>
      obtain ⟨ascii, clear⟩ := readable supplied parsed
      simp only [Except.toOption, Option.bind_some, matchToken_eq ascii clear]
      cases configured.accepted.find? fun entry => entry.1 = supplied with
      | none => exact Or.inr ⟨rfl, _, rfl⟩
      | some entry => exact Or.inl ⟨_, rfl, rfl⟩
  | oidc configured =>
    rw [identity, authenticate]
    cases parsed : parseBearer authorization with
    | error error => exact Or.inr ⟨rfl, _, by rw [parseBearer_error parsed]⟩
    | ok token =>
      obtain ⟨library, rfl⟩ := Option.isSome_iff_exists.mp (readable token parsed)
      simp only [Except.toOption, Option.bind_some]
      cases configured.decoded library token with
      | none => exact Or.inr ⟨rfl, _, rfl⟩
      | some claims => exact Or.inl ⟨_, rfl, rfl⟩

/-- A header that is not readable raises something else than a refusal. -/
theorem authenticate_raises (fingerprint : String → String)
    (unreadable : ¬authenticator.Readable jwt authorization) :
    ∃ raised, authenticator.authenticate fingerprint jwt authorization = .error raised ∧
      ∀ error, raised ≠ .security error := by
  cases authenticator with
  | null => exact absurd trivial unreadable
  | static configured =>
    rw [authenticate]
    cases parsed : parseBearer authorization with
    | error error =>
      exact absurd (fun supplied read => nomatch parsed.symm.trans read) unreadable
    | ok supplied =>
      have filled : configured.accepted ≠ [] := by
        rw [StaticTokenAuthenticator.accepted, ne_eq, List.map_eq_nil_iff]
        exact configured.nonempty
      obtain ⟨text, raised⟩ : ∃ text, matchToken fingerprint supplied configured.accepted =
          .error (.typeError text) :=
        matchToken_raises filled fun readable =>
          unreadable fun other read => Except.ok.inj (parsed.symm.trans read) ▸ readable
      exact ⟨_, raised, fun _ absurd => nomatch absurd⟩
  | oidc configured =>
    rw [authenticate]
    cases parsed : parseBearer authorization with
    | error error =>
      exact absurd (fun supplied read => nomatch parsed.symm.trans read) unreadable
    | ok token =>
      cases jwt with
      | none => exact ⟨_, rfl, fun _ absurd => nomatch absurd⟩
      | some library => exact absurd (fun _ _ => rfl) unreadable

end Authenticator

end Authenticate

end FlOp.Serving
