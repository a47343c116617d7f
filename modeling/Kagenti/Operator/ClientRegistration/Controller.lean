import Kagenti.Operator.Keycloak.Separation
import Kagenti.Operator.Webhook.Handler

/-!
The client registration controller (`clientregistration_controller.go`). What the API server,
Keycloak and the file system answer is a parameter, and so is the conversion from YAML to JSON. The
audience scope and events are left out.
-/

namespace Kagenti.Operator.ClientRegistration

open Go AgentRuntime Webhook
open Keycloak (resolveKeycloakClientID)

/-- What the controller reads from a pod template. -/
structure Template where
  labels : Option StringMap
  annotations : StringMap
  serviceAccountName : String

/-! Feature gates -/

structure Gates where
  globalOn : Bool
  clientReg : Bool
  injectTools : Bool
  deriving DecidableEq

def Gates.default : Gates := ⟨true, true, false⟩

/-- A document that is a map with members. -/
def parseGates (yaml : String → Option Json) (raw : String) : Option AnyMap :=
  if trimSpace raw = "" then none
  else
    match (yaml (trimSpace raw)).bind (Into.anyMap none) with
    | some (some m) => if m.entries.isEmpty then none else some m
    | _ => none

/-- A gate keeps its value unless the member is a boolean. -/
def gateValue (m : AnyMap) (key : String) (value : Bool) : Bool :=
  match m.lookup key with
  | some (.bool b) => b
  | _ => value

def applyGates (g : Gates) (m : AnyMap) : Gates where
  globalOn := gateValue m "globalEnabled" g.globalOn
  clientReg := gateValue m "clientRegistration" g.clientReg
  injectTools := gateValue m "injectTools" g.injectTools

def gatesDocument (yaml : String → Option Json) (data : StringMap) : Option AnyMap :=
  ((data.lookup "feature-gates.yaml").bind (parseGates yaml)).or
    ((data.sorted.filter fun e => e.1 ≠ "feature-gates.yaml").findSome? fun e =>
      parseGates yaml e.2)

def readClusterFeatureGates (yaml : String → Option Json) (get : Except ReadError ConfigMap) :
    Except ReadError Gates :=
  match get with
  | .error .notFound => .ok .default
  | .error .transient => .error .transient
  | .ok cm =>
    .ok (((cm.data.bind (gatesDocument yaml)).map (applyGates .default)).getD .default)

/-! Configuration of the namespace -/

structure AuthbridgeConfig where
  keycloakURL : String
  keycloakRealm : String
  clientAuthType : String
  spiffeIDPAlias : String
  keycloakTokenExchangeEnabled : String
  deriving DecidableEq

def readAuthbridgeConfigMap (get : Except ReadError ConfigMap) :
    Except ReadError AuthbridgeConfig :=
  match get with
  | .error .notFound => .ok ⟨"", "", "", "", ""⟩
  | .error .transient => .error .transient
  | .ok cm =>
    let data := cm.data.getD ∅
    .ok {
      keycloakURL := data.value "KEYCLOAK_URL"
      keycloakRealm := data.value "KEYCLOAK_REALM"
      clientAuthType := data.value "CLIENT_AUTH_TYPE"
      spiffeIDPAlias := data.value "SPIFFE_IDP_ALIAS"
      keycloakTokenExchangeEnabled := data.value "KEYCLOAK_TOKEN_EXCHANGE_ENABLED" }

/-! Registration -/

structure ClientRegistrationParams where
  realm : String
  clientID : String
  clientName : String
  clientAuthType : String
  spiffeIDPAlias : String
  tokenExchangeEnable : Bool
  deriving DecidableEq

/-- The Secret, with client-id.txt and client-secret.txt. -/
structure CredentialsSecret where
  ns : String
  name : String
  clientID : String
  clientSecret : String
  deriving DecidableEq

/-- The answers to the calls of one reconcile. -/
structure Answers where
  featureGates : Except ReadError ConfigMap
  deployment : String → String → Except ReadError Template
  statefulSet : String → String → Except ReadError Template
  sandbox : String → String → Except ReadError Template
  authbridgeConfig : String → Except ReadError ConfigMap
  -- the user and the password of the admin
  adminSecret : Except ReadError (String × String)
  readFile : String → Except String String
  -- by URL, realm, client and JWT-SVID
  jwtSVIDGrantToken : String → String → String → String → Except String String
  -- by URL, user and password
  passwordGrantToken : String → String → String → Except String String
  -- by URL and token; the internal id and the client secret
  registerOrFetchClient : String → String → ClientRegistrationParams →
    Except String (String × String)
  createOrUpdateSecret : CredentialsSecret → Except String Unit
  patchTemplate : String → Except String Unit

inductive Result where
  | done
  | requeueAfter (seconds : Nat)
  | apiError (e : ReadError)
  | configError (message : String)
  deriving DecidableEq

structure Run where
  registered : List ClientRegistrationParams
  secrets : List CredentialsSecret
  annotated : List String
  result : Result
  deriving DecidableEq

def Run.stop (result : Result) : Run := ⟨[], [], [], result⟩

structure Reconciler where
  spireTrustDomain : String
  useSpiffeAuth : Bool
  jwtSVIDPath : String
  operatorClientID : String
  sha256 : Bytes → Bytes
  yaml : String → Option Json

namespace Reconciler

variable (r : Reconciler)

def requeue : Result := .requeueAfter 30

def tokenPath : String := if r.jwtSVIDPath = "" then "/opt/jwt_svid.token" else r.jwtSVIDPath

/-- The directories that tokens are read from. -/
def allowedPath (path : Bytes) : Bool :=
  decide (bytes "/opt/" <+: path) || decide (bytes "/var/run/secrets/" <+: path)

def authenticate (answers : Answers) (ab : AuthbridgeConfig) : Except Result String :=
  if r.useSpiffeAuth then
    if r.operatorClientID = "" then .error requeue
    else
      let cleanPath := Path.clean (bytes r.tokenPath)
      if allowedPath cleanPath then do
        let jwtSVID ← (answers.readFile (text cleanPath)).mapError fun _ => requeue
        (answers.jwtSVIDGrantToken ab.keycloakURL ab.keycloakRealm r.operatorClientID
          jwtSVID).mapError fun _ => requeue
      else
        .error (.configError ("JWT-SVID path \"" ++ r.tokenPath ++
          "\" outside allowed directories (/opt/, /var/run/secrets/)"))
  else
    match answers.adminSecret with
    | .error .notFound => .error requeue
    | .error .transient => .error (.apiError .transient)
    | .ok (adminUser, adminPass) =>
      if adminUser = "" ∨ adminPass = "" then .error requeue
      else (answers.passwordGrantToken ab.keycloakURL adminUser adminPass).mapError fun _ =>
        requeue

def params (ab : AuthbridgeConfig) (ns workloadName clientID : String) :
    ClientRegistrationParams where
  realm := ab.keycloakRealm
  clientID := clientID
  clientName := ns ++ "/" ++ workloadName
  clientAuthType :=
    if trimSpace ab.clientAuthType = "" then "client-secret" else trimSpace ab.clientAuthType
  spiffeIDPAlias := ab.spiffeIDPAlias
  tokenExchangeEnable := trimSpace ab.keycloakTokenExchangeEnabled ≠ "false"

/-- The rest of a reconcile, once there is a client id and a token. -/
def register (answers : Answers) (ab : AuthbridgeConfig) (token ns workloadName clientID : String) :
    Run :=
  let p := params ab ns workloadName clientID
  match answers.registerOrFetchClient ab.keycloakURL token p with
  | .error _ => ⟨[p], [], [], requeue⟩
  | .ok (_, clientSecret) =>
    let secret : CredentialsSecret := {
      ns := ns
      name := keycloakClientCredentialsSecretName r.sha256 ns workloadName
      clientID := clientID
      clientSecret := if p.clientAuthType = "federated-jwt" then "" else clientSecret }
    match answers.createOrUpdateSecret secret with
    | .error _ => ⟨[p], [], [], requeue⟩
    | .ok () =>
      match answers.patchTemplate secret.name with
      | .error _ => ⟨[p], [secret], [], requeue⟩
      | .ok () => ⟨[p], [secret], [secret.name], .done⟩

def reconcileOne (answers : Answers) (injectTools : Bool) (ns workloadName : String)
    (template : Template) : Run :=
  if skipReason template.labels injectTools ≠ "" then .stop .done
  else
    match readAuthbridgeConfigMap (answers.authbridgeConfig ns) with
    | .error _ => .stop requeue
    | .ok ab =>
      if ab.keycloakURL = "" ∨ ab.keycloakRealm = "" then .stop requeue
      else
        match resolveKeycloakClientID ns workloadName template.serviceAccountName
            (r.spireTrustDomain ≠ "") r.spireTrustDomain with
        | .error _ => .stop requeue
        | .ok clientID =>
          match r.authenticate answers ab with
          | .error result => .stop result
          | .ok token => r.register answers ab token ns workloadName clientID

def findWorkload (answers : Answers) (ns name : String) : Except ReadError Template :=
  match answers.deployment ns name with
  | .ok template => .ok template
  | .error .transient => .error .transient
  | .error .notFound =>
    match answers.statefulSet ns name with
    | .ok template => .ok template
    | .error .transient => .error .transient
    | .error .notFound => answers.sandbox ns name

def reconcile (answers : Answers) (ns name : String) : Run :=
  match readClusterFeatureGates r.yaml answers.featureGates with
  | .error _ => .stop requeue
  | .ok gates =>
    if gates.globalOn = false ∨ gates.clientReg = false then .stop .done
    else
      match findWorkload answers ns name with
      | .error .notFound => .stop .done
      | .error e => .stop (.apiError e)
      | .ok template => r.reconcileOne answers gates.injectTools ns name template

end Reconciler

end Kagenti.Operator.ClientRegistration
