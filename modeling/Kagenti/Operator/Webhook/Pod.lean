import Kagenti.Go.Http
import Kagenti.Go.StringMap
import Kagenti.Lib.Keyed
import Kagenti.Operator.Injector.Ports

/-!
Pods as the admission webhook sees them, and the changes to a pod that stand on their own: the
environment of a container, the volumes with the Keycloak client credentials
(`keycloak_client_credentials.go`) and with the CA of the TLS bridge (`volume_builder.go`).
-/

namespace Kagenti.Operator.Webhook

open Go Lib.Keyed
open Injector (authBridgeProxyContainerName)

inductive EnvVarSource where
  | configMapKeyRef (name key : String) (optional : Bool)
  | fieldRef (fieldPath : String)
  -- a source that only users refer to
  | other (description : String)
  deriving DecidableEq

structure EnvVar where
  name : String
  value : String
  valueFrom : Option EnvVarSource
  deriving DecidableEq

structure ContainerPort where
  name : String
  containerPort : Int
  protocol : String
  deriving DecidableEq

structure VolumeMount where
  name : String
  mountPath : String
  subPath : String
  readOnly : Bool
  deriving DecidableEq

inductive VolumeSource where
  | emptyDir
  | csi (driver : String) (readOnly : Bool)
  | configMap (name : String) (optional : Option Bool)
  | secret (secretName : String) (optional : Option Bool) (defaultMode : Option Nat)
      (items : List (String × String))
  | other (description : String)
  deriving DecidableEq

structure Volume where
  name : String
  source : VolumeSource
  deriving DecidableEq

structure SecurityContext where
  runAsUser : Option Int
  runAsGroup : Option Int
  runAsNonRoot : Option Bool
  allowPrivilegeEscalation : Option Bool
  privileged : Option Bool
  addCapabilities : List String
  dropCapabilities : List String
  deriving DecidableEq

structure ResourceRequirements where
  requests : List (String × String)
  limits : List (String × String)
  deriving DecidableEq

structure Container where
  name : String
  image : String
  imagePullPolicy : String
  args : List String
  resources : ResourceRequirements
  ports : List ContainerPort
  env : List EnvVar
  securityContext : Option SecurityContext
  volumeMounts : List VolumeMount
  deriving DecidableEq

structure PodSpec where
  serviceAccountName : String
  containers : List Container
  initContainers : List Container
  volumes : List Volume
  -- of the security context of the pod, if that has one
  fsGroup : Option Int
  deriving DecidableEq

structure OwnerReference where
  kind : String
  name : String
  controller : Option Bool
  deriving DecidableEq

structure Pod where
  name : String
  generateName : String
  uid : String
  -- nil or a map
  labels : Option StringMap
  annotations : StringMap
  ownerReferences : List OwnerReference
  spec : PodSpec

def labelValue (labels : Option StringMap) (key : String) : String := (labels.getD ∅).value key

def containerExists (containers : List Container) (name : String) : Bool :=
  hasKey Container.name containers name

def volumeExists (volumes : List Volume) (name : String) : Bool := hasKey Volume.name volumes name

/-! Environment -/

def setOrAddEnv (name value : String) : List EnvVar → List EnvVar
  | [] => [⟨name, value, none⟩]
  | e :: env =>
    if e.name = name then { e with value := value, valueFrom := none } :: env
    else e :: setOrAddEnv name value env

def injectHTTPProxyEnv (forwardProxyPort : Int) (c : Container) : Container :=
  let proxyURL := "http://127.0.0.1:" ++ toString forwardProxyPort
  { c with
    env := addAll EnvVar.name c.env
      [⟨"HTTP_PROXY", proxyURL, none⟩, ⟨"HTTPS_PROXY", proxyURL, none⟩,
        ⟨"NO_PROXY", "127.0.0.1,localhost", none⟩] }

/-! Client credentials -/

def annotationKeycloakClientSecretName : String :=
  "kagenti.io/keycloak-client-credentials-secret-name"

/-- The Secret that the annotations name, or the empty string. -/
def credentialsSecretName (annotations : StringMap) : String :=
  trimSpace (annotations.value annotationKeycloakClientSecretName)

def keycloakClientCredentialsVolumeName (secretName : String) : String := secretName

def containerVolumeMountExists (mounts : List VolumeMount) (volumeName : String) : Bool :=
  hasKey VolumeMount.name mounts volumeName

/-- What tells the mounts of credentials apart. -/
def VolumeMount.place (m : VolumeMount) : String × String := (m.name, m.mountPath)

def containerHasKeycloakCredentialsMount (c : Container) (volumeName mountPath : String) : Bool :=
  hasKey VolumeMount.place c.volumeMounts (volumeName, mountPath)

def appendSubPathMount (vol subPath mountPath : String) (c : Container) : Container :=
  { c with
    volumeMounts := addIfMissing VolumeMount.place c.volumeMounts ⟨vol, mountPath, subPath, true⟩ }

def clientSecretPath : String := "/shared/client-secret.txt"

def clientIDPath : String := "/shared/client-id.txt"

def mountCredentials (vol : String) (c : Container) : Container :=
  if containerVolumeMountExists c.volumeMounts "shared-data" then
    appendSubPathMount vol "client-id.txt" clientIDPath
      (appendSubPathMount vol "client-secret.txt" clientSecretPath c)
  else c

def credentialsVolume (secretName : String) : Volume :=
  ⟨keycloakClientCredentialsVolumeName secretName, .secret secretName (some false) none []⟩

def needsKeycloakClientCredentialsVolumePatch (spec : PodSpec) (annotations : StringMap) : Bool :=
  let secretName := credentialsSecretName annotations
  let volName := keycloakClientCredentialsVolumeName secretName
  secretName ≠ "" &&
    (!volumeExists spec.volumes volName ||
      spec.containers.any fun c =>
        containerVolumeMountExists c.volumeMounts "shared-data" &&
          (!containerHasKeycloakCredentialsMount c volName clientSecretPath ||
            !containerHasKeycloakCredentialsMount c volName clientIDPath))

def applyKeycloakClientCredentialsSecretVolumes (annotations : StringMap) (spec : PodSpec) :
    PodSpec :=
  let secretName := credentialsSecretName annotations
  if secretName = "" then spec
  else
    { spec with
      volumes := addIfMissing Volume.name spec.volumes (credentialsVolume secretName)
      containers := spec.containers.map
        (mountCredentials (keycloakClientCredentialsVolumeName secretName)) }

/-! The CA of the TLS bridge -/

def tlsBridgeTrustEnvVars : List String :=
  ["NODE_EXTRA_CA_CERTS", "SSL_CERT_FILE", "REQUESTS_CA_BUNDLE", "CURL_CA_BUNDLE",
    "GIT_SSL_CAINFO", "AWS_CA_BUNDLE", "GRPC_DEFAULT_SSL_ROOTS_FILE_PATH"]

def tlsBridgeCASecretSuffix : String := "-tls-bridge-ca"

def tlsBridgeCAVolumeName : String := "tls-bridge-ca"

def tlsBridgeCACertVolumeName : String := "tls-bridge-ca-cert"

def tlsBridgeCAMountPath : String := "/etc/authbridge/tls-bridge-ca"

def addVolumeMountIfMissing (vm : VolumeMount) (c : Container) : Container :=
  { c with volumeMounts := addIfMissing VolumeMount.name c.volumeMounts vm }

def tlsBridgeVolumeFor (c : Container) : String :=
  if c.name = authBridgeProxyContainerName then tlsBridgeCAVolumeName
  else tlsBridgeCACertVolumeName

def mountTLSBridge (c : Container) : Container :=
  let mounted := addVolumeMountIfMissing ⟨tlsBridgeVolumeFor c, tlsBridgeCAMountPath, "", true⟩ c
  if c.name = authBridgeProxyContainerName then mounted
  else
    { mounted with
      env := tlsBridgeTrustEnvVars.foldl
        (fun env name => setOrAddEnv name (tlsBridgeCAMountPath ++ "/ca.crt") env) c.env }

def tlsBridgeVolumes (workloadName : String) : List Volume :=
  let secretName := workloadName ++ tlsBridgeCASecretSuffix
  [⟨tlsBridgeCAVolumeName, .secret secretName none (some 0o444) []⟩,
    ⟨tlsBridgeCACertVolumeName, .secret secretName none (some 0o444) [("ca.crt", "ca.crt")]⟩]

def applyTLSBridgeMounts (workloadName : String) (spec : PodSpec) : PodSpec :=
  { spec with
    volumes := addAll Volume.name spec.volumes (tlsBridgeVolumes workloadName)
    containers := spec.containers.map mountTLSBridge }

def sharedVolumesFSGroup : Int := 0

def ensureFSGroup (spec : PodSpec) : PodSpec :=
  { spec with fsGroup := some (spec.fsGroup.getD sharedVolumesFSGroup) }

end Kagenti.Operator.Webhook
