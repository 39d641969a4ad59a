import FlOp.Serving.Authenticators

/-! # The security gateway

Every protected request is authenticated, authorized and counted, and a refusal is recorded before
it becomes an HTTP response. Only security errors are translated: any other error that an
authenticator or the audit file raises escapes, and leaves no record if authentication raised it.
-/

namespace FlOp.Serving

open Library FlOp.Core

inductive Decision where
  | allow
  | deny
deriving DecidableEq, Repr

/-- One record of the audit trail. -/
structure AuditRecord where
  ts : String
  method : String
  path : String
  client : String
  subject : String
  tokenId : String
  decision : Decision
  status : ℕ
  reason : String
deriving DecidableEq, Repr

/-- Writes one audit record per request to a logger and an optional file. -/
structure AuditLogger where
  enabled : Bool := true
  filePath : Option String := none

/-- The records of the logger and the lines of the file. -/
structure AuditTrail where
  logged : List AuditRecord := []
  appended : List AuditRecord := []

/-- `AuditLogger.record`; `fileError` is what the file system answers to an append. -/
def AuditLogger.record (audit : AuditLogger) (fileError : Option String) (trail : AuditTrail)
    (entry : AuditRecord) : AuditTrail × Except Raised Unit :=
  if audit.enabled then
    let logged := { trail with logged := trail.logged ++ [entry] }
    match audit.filePath, fileError with
    | none, _ => (logged, .ok ())
    | some _, some text => (logged, .error (.osError text))
    | some _, none => ({ logged with appended := trail.appended ++ [entry] }, .ok ())
  else (trail, .ok ())

structure SecurityGateway where
  authenticator : Authenticator
  rateLimiter : FixedWindowRateLimiter
  audit : AuditLogger

/-- What the gateway reads of a request. -/
structure Request where
  clientHost : Option String
  method : String
  path : String
  authorization : Option String

def Request.client (request : Request) : String := request.clientHost.getD "-"

/-- What a request meets: the library, the two clocks and the file system. -/
structure Surroundings where
  fingerprint : String → String
  jwt : Option JwtModule
  now : Instant
  ts : String
  fileError : Option String

/-- What the gateway keeps between requests. -/
structure GatewayState where
  windows : RateWindows := .empty
  trail : AuditTrail := {}

/-- How the dependency ends: with a principal, an `HTTPException` or another error. -/
inductive Response where
  | granted (principal : Principal)
  | refused (statusCode : ℕ) (detail : String) (headers : Option (List (String × String)))
  | escaped (raised : Raised)

/-- Throttle per identity; fall back to the client host for anonymous traffic. -/
def rateLimitKey (principal : Principal) (client : String) : String :=
  if principal.subject = anonymousSubject ∨ principal.subject = "" then "ip:" ++ client
  else "sub:" ++ principal.subject

namespace SecurityGateway

variable (gateway : SecurityGateway) (surroundings : Surroundings) (request : Request)
  (scope : String)

/-- The record of a decision on the request. -/
def entry (principal : Option Principal) (decision : Decision) (status : ℕ) (reason : String) :
    AuditRecord where
  ts := surroundings.ts
  method := request.method
  path := request.path
  client := request.client
  subject := (principal.map Principal.subject).getD ""
  tokenId := (principal.map Principal.tokenId).getD ""
  decision := decision
  status := status
  reason := reason

/-- Record a decision and end with a response, unless the record cannot be written. -/
def conclude (state : GatewayState) (written : AuditRecord) (response : Response) :
    GatewayState × Response :=
  let (trail, outcome) := gateway.audit.record surroundings.fileError state.trail written
  ({ state with trail := trail },
    match outcome with
    | .ok () => response
    | .error raised => .escaped raised)

/-- The `except SecurityError` branch. -/
def deny (state : GatewayState) (principal : Option Principal) (error : SecurityError) :
    GatewayState × Response :=
  gateway.conclude surroundings state
    (entry surroundings request principal .deny error.statusCode error.detail)
    (.refused error.statusCode error.detail (if error.headers = [] then none else error.headers))

/-- `dependency`: guard a route that demands a scope. -/
def dependency (state : GatewayState) : GatewayState × Response :=
  match gateway.authenticator.authenticate surroundings.fingerprint surroundings.jwt
      request.authorization with
  | .error (.security error) => gateway.deny surroundings request state none error
  | .error raised => (state, .escaped raised)
  | .ok principal =>
    if principal.hasScope scope then
      let (windows, refusal) := gateway.rateLimiter.check state.windows
        ⟨rateLimitKey principal request.client, surroundings.now⟩
      let state := { state with windows := windows }
      match refusal with
      | some error => gateway.deny surroundings request state (some principal) error
      | none => gateway.conclude surroundings state
          (entry surroundings request (some principal) .allow 200 "") (.granted principal)
    else gateway.deny surroundings request state (some principal)
      (authorizationError ("missing required scope '" ++ scope ++ "'"))

/-- The request is not to be let through: the header identifies nobody, or the principal lacks the
scope, or its budget is spent. -/
def Refused (state : GatewayState) : Prop :=
  match gateway.authenticator.identity surroundings.fingerprint surroundings.jwt
      request.authorization with
  | none => True
  | some principal => principal.hasScope scope = false ∨
      (gateway.rateLimiter.check state.windows
        ⟨rateLimitKey principal request.client, surroundings.now⟩).2.isSome = true

/-- An authentication ends with a principal or an `AuthenticationError`, nothing else escapes, and
a refusal leaves exactly one record, of itself. -/
structure Handled (state : GatewayState) : Prop where
  total : (∃ principal, gateway.authenticator.authenticate surroundings.fingerprint
        surroundings.jwt request.authorization = .ok principal) ∨
    ∃ detail, gateway.authenticator.authenticate surroundings.fingerprint surroundings.jwt
        request.authorization = .error (.security (authenticationError detail))
  contained : ∀ raised, (gateway.dependency surroundings request scope state).2 ≠ .escaped raised
  audited : ∀ statusCode detail headers,
    (gateway.dependency surroundings request scope state).2 =
      .refused statusCode detail headers →
    ∃ written : AuditRecord, written.decision = .deny ∧ written.status = statusCode ∧
      written.reason = detail ∧
      (gateway.dependency surroundings request scope state).1.trail.logged =
        state.trail.logged ++ [written]

/-- The header can be read, a refusal is recorded at all, and the audit file takes the record. -/
structure Auditable (state : GatewayState) : Prop where
  readable : gateway.authenticator.Readable surroundings.jwt request.authorization
  recorded : gateway.Refused surroundings request scope state → gateway.audit.enabled = true
  filed : gateway.audit.enabled = true → gateway.audit.filePath.isSome = true →
    surroundings.fileError = none

variable {gateway surroundings request scope} {state : GatewayState}

/-- What a decided request leaves to be recorded, and how it is to end. -/
inductive Concluded (gateway : SecurityGateway) (surroundings : Surroundings) (request : Request)
    (scope : String) (state : GatewayState) : AuditRecord → Response → Prop where
  | denied {principal : Option Principal} {error : SecurityError}
      {headers : Option (List (String × String))}
      (refused : gateway.Refused surroundings request scope state) :
      Concluded gateway surroundings request scope state
        (entry surroundings request principal .deny error.statusCode error.detail)
        (.refused error.statusCode error.detail headers)
  | allowed {principal : Principal}
      (granted : ¬gateway.Refused surroundings request scope state) :
      Concluded gateway surroundings request scope state
        (entry surroundings request (some principal) .allow 200 "") (.granted principal)

/-- A readable request is decided, and its decision goes to the audit logger once. -/
theorem dependency_of_readable (scope : String) (state : GatewayState)
    (readable : gateway.authenticator.Readable surroundings.jwt request.authorization) :
    ∃ windows written response,
      Concluded gateway surroundings request scope state written response ∧
      gateway.dependency surroundings request scope state =
        gateway.conclude surroundings { state with windows := windows } written response := by
  rcases Authenticator.authenticate_of_readable readable with
    ⟨principal, identified, authenticated⟩ | ⟨unknown, detail, rejected⟩
  · rw [dependency, authenticated]
    dsimp only
    cases holds : principal.hasScope scope with
    | false =>
      rw [if_neg Bool.false_ne_true]
      have refused : gateway.Refused surroundings request scope state := by
        rw [Refused, identified]
        exact Or.inl holds
      exact ⟨state.windows, _, _, .denied refused, rfl⟩
    | true =>
      rw [if_pos rfl]
      cases counted : gateway.rateLimiter.check state.windows
          ⟨rateLimitKey principal request.client, surroundings.now⟩ with
      | mk windows refusal =>
        cases refusal with
        | some error =>
          have refused : gateway.Refused surroundings request scope state := by
            rw [Refused, identified]
            exact Or.inr (by rw [counted]; rfl)
          exact ⟨windows, _, _, .denied refused, rfl⟩
        | none =>
          have granted : ¬gateway.Refused surroundings request scope state := by
            rw [Refused, identified]
            rintro (missing | spent)
            · rw [holds] at missing
              cases missing
            · rw [counted] at spent
              cases spent
          exact ⟨windows, _, _, .allowed granted, rfl⟩
  · rw [dependency, rejected]
    have refused : gateway.Refused surroundings request scope state := by
      rw [Refused, unknown]
      trivial
    exact ⟨state.windows, _, _, .denied refused, rfl⟩

/-- A record that is written is logged once, and the response stands. -/
theorem conclude_of_filed (state : GatewayState) (written : AuditRecord) (response : Response)
    (enabled : gateway.audit.enabled = true)
    (filed : gateway.audit.filePath.isSome = true → surroundings.fileError = none) :
    (gateway.conclude surroundings state written response).2 = response ∧
      (gateway.conclude surroundings state written response).1.trail.logged =
        state.trail.logged ++ [written] := by
  rw [conclude, AuditLogger.record, if_pos enabled]
  cases path : gateway.audit.filePath with
  | none => exact ⟨rfl, rfl⟩
  | some file =>
    rw [filed (by rw [path]; rfl)]
    exact ⟨rfl, rfl⟩

theorem conclude_of_disabled (state : GatewayState) (written : AuditRecord) (response : Response)
    (disabled : gateway.audit.enabled = false) :
    gateway.conclude surroundings state written response = (state, response) := by
  rw [conclude, AuditLogger.record, disabled]
  rfl

/-- A file that takes no record makes the request fail. -/
theorem conclude_of_fileError (state : GatewayState) (written : AuditRecord)
    (response : Response) {text : String}
    (enabled : gateway.audit.enabled = true) (path : gateway.audit.filePath.isSome = true)
    (error : surroundings.fileError = some text) :
    (gateway.conclude surroundings state written response).2 = .escaped (.osError text) := by
  obtain ⟨file, path⟩ := Option.isSome_iff_exists.mp path
  rw [conclude, AuditLogger.record, if_pos enabled, path, error]

/-- A decision ends with a refusal or a principal, never with another error. -/
theorem Concluded.contained {written : AuditRecord} {response : Response}
    (concluded : Concluded gateway surroundings request scope state written response)
    (raised : Raised) : response ≠ .escaped raised := by
  cases concluded <;> exact fun absurd => nomatch absurd

/-- The record of a refusal says what is refused. -/
theorem Concluded.denies {written : AuditRecord} {statusCode : ℕ} {detail : String}
    {headers : Option (List (String × String))}
    (concluded : Concluded gateway surroundings request scope state written
      (.refused statusCode detail headers)) :
    gateway.Refused surroundings request scope state ∧ written.decision = .deny ∧
      written.status = statusCode ∧ written.reason = detail := by
  cases concluded with
  | denied refused => exact ⟨refused, rfl, rfl, rfl⟩

theorem handled_of_auditable
    (auditable : Auditable gateway surroundings request scope state) :
    Handled gateway surroundings request scope state := by
  obtain ⟨windows, written, response, concluded, run⟩ :=
    dependency_of_readable scope state auditable.readable
  constructor
  · rcases Authenticator.authenticate_of_readable auditable.readable with
      ⟨principal, -, authenticated⟩ | ⟨-, detail, rejected⟩
    · exact Or.inl ⟨principal, authenticated⟩
    · exact Or.inr ⟨detail, rejected⟩
  · intro raised
    rw [run]
    cases enabled : gateway.audit.enabled with
    | true =>
      rw [(conclude_of_filed _ _ _ enabled (auditable.filed enabled)).1]
      exact concluded.contained raised
    | false =>
      rw [conclude_of_disabled _ _ _ enabled]
      exact concluded.contained raised
  · intro statusCode detail headers ends
    rw [run] at ends ⊢
    cases enabled : gateway.audit.enabled with
    | true =>
      obtain ⟨stands, logged⟩ := conclude_of_filed { state with windows := windows } written
        response enabled (auditable.filed enabled)
      rw [stands] at ends
      subst ends
      obtain ⟨-, denied, status, reason⟩ := concluded.denies
      exact ⟨written, denied, status, reason, logged⟩
    | false =>
      rw [conclude_of_disabled _ _ _ enabled] at ends
      change response = _ at ends
      subst ends
      rw [auditable.recorded concluded.denies.1] at enabled
      cases enabled

theorem auditable_of_handled (handled : Handled gateway surroundings request scope state) :
    Auditable gateway surroundings request scope state := by
  have readable : gateway.authenticator.Readable surroundings.jwt request.authorization := by
    by_contra unreadable
    obtain ⟨raised, fails, other⟩ := Authenticator.authenticate_raises
      surroundings.fingerprint unreadable
    rcases handled.total with ⟨principal, authenticated⟩ | ⟨detail, rejected⟩
    · exact nomatch fails.symm.trans authenticated
    · exact other _ (Except.error.inj (fails.symm.trans rejected))
  obtain ⟨windows, written, response, concluded, run⟩ :=
    dependency_of_readable scope state readable
  refine ⟨readable, fun refused => ?_, fun enabled path => ?_⟩
  · cases concluded with
    | allowed granted => exact absurd refused granted
    | denied =>
      by_contra disabled
      rw [conclude_of_disabled _ _ _ (Bool.eq_false_iff.mpr disabled)] at run
      obtain ⟨record, -, -, -, logged⟩ := handled.audited _ _ _ (congrArg Prod.snd run)
      rw [run] at logged
      exact List.cons_ne_nil _ _ (List.self_eq_append_right.mp logged)
  · cases error : surroundings.fileError with
    | none => rfl
    | some text =>
      have escapes := conclude_of_fileError { state with windows := windows } written response
        enabled path error
      rw [← run] at escapes
      exact absurd escapes (handled.contained _)

/-- Whatever the header holds, authentication ends with a principal or an `AuthenticationError`, a
refusal leaves exactly one record and no other error escapes, exactly if the header can be read by
the authenticator, a request that is to be refused finds the audit log enabled, and the audit file,
where there is one, takes the record. -/
theorem handled_iff (gateway : SecurityGateway) (surroundings : Surroundings) (request : Request)
    (scope : String) (state : GatewayState) :
    Handled gateway surroundings request scope state ↔
      Auditable gateway surroundings request scope state :=
  ⟨auditable_of_handled, handled_of_auditable⟩

/-- A gateway with one static token and no rate limit. -/
def secretGateway : SecurityGateway where
  authenticator := .static ⟨⟨[("secret", ∅)], by decide⟩, by decide⟩
  rateLimiter := ⟨0, 60, "60"⟩
  audit := {}

/-- A token with an accent is no token of the gateway; comparing it raises, and the request leaves
no record. -/
theorem accent_escapes :
    (secretGateway.dependency ⟨id, none, 0, "2024-01-01T00:00:00+00:00", none⟩
        ⟨some "10.0.0.7", "GET", "/plans", some "Bearer é"⟩ "plans:read" {}).2 =
      .escaped (.typeError "comparing strings with non-ASCII characters is not supported") ∧
    (secretGateway.dependency ⟨id, none, 0, "2024-01-01T00:00:00+00:00", none⟩
        ⟨some "10.0.0.7", "GET", "/plans", some "Bearer é"⟩ "plans:read" {}).1.trail.logged =
      [] := by
  constructor
  · rfl
  · rfl

/-- A request as it arrives, the scope of its route and what it meets. -/
structure Arrival where
  request : Request
  scope : String
  surroundings : Surroundings

/-- Any number of requests, one after the other. -/
def serve (gateway : SecurityGateway) (state : GatewayState) :
    List Arrival → GatewayState × List Response
  | [] => (state, [])
  | arrival :: rest =>
    let (after, response) :=
      gateway.dependency arrival.surroundings arrival.request arrival.scope state
    let (final, responses) := serve gateway after rest
    (final, response :: responses)

/-- A record says how its request ended. -/
def Records (written : AuditRecord) : Response → Prop
  | .granted principal => written.decision = .allow ∧ written.subject = principal.subject
  | .refused statusCode detail _ =>
    written.decision = .deny ∧ written.status = statusCode ∧ written.reason = detail
  | .escaped _ => False

theorem Concluded.records {written : AuditRecord} {response : Response}
    (concluded : Concluded gateway surroundings request scope state written response) :
    Records written response := by
  cases concluded with
  | denied => exact ⟨rfl, rfl, rfl⟩
  | allowed => exact ⟨rfl, rfl⟩

/-- Over any run of readable requests the log gets one record for each, in their order. -/
theorem logged_serve (enabled : gateway.audit.enabled = true) {arrivals : List Arrival}
    (readable : ∀ arrival ∈ arrivals,
      gateway.authenticator.Readable arrival.surroundings.jwt arrival.request.authorization)
    (filed : gateway.audit.filePath.isSome = true →
      ∀ arrival ∈ arrivals, arrival.surroundings.fileError = none) :
    ∃ written, (gateway.serve state arrivals).1.trail.logged = state.trail.logged ++ written ∧
      List.Forall₂ Records written (gateway.serve state arrivals).2 := by
  induction arrivals generalizing state with
  | nil => exact ⟨[], (List.append_nil _).symm, .nil⟩
  | cons arrival rest ih =>
    obtain ⟨first, readable⟩ := List.forall_mem_cons.mp readable
    obtain ⟨windows, record, response, concluded, decided⟩ :=
      dependency_of_readable arrival.scope state first
    obtain ⟨stands, logged⟩ := conclude_of_filed { state with windows := windows } record response
      enabled fun path => filed path arrival List.mem_cons_self
    rw [← decided] at stands logged
    obtain ⟨written, later, recorded⟩ := @ih
      (gateway.dependency arrival.surroundings arrival.request arrival.scope state).1 readable
      fun path other member => filed path other (List.mem_cons_of_mem _ member)
    refine ⟨record :: written, ?_, ?_⟩
    · rw [serve]
      simp only [later, logged, List.append_assoc, List.singleton_append]
    · rw [serve]
      simp only [stands]
      exact .cons concluded.records recorded

end SecurityGateway

end FlOp.Serving
