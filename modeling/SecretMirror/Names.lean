import SecretMirror.Value

/-!
# Names

The names by which the operator, its secrets and its marker on them are known in the cluster.  The
canonical secret is the source, and its mirror is the target.  Both lie in one namespace, and their
names share a stem.
-/

namespace SecretMirror.Names

/-- The API group of the encryption controllers.  It is the prefix of the marker and of the
finalizer, which those controllers share. -/
def apiGroup : String := "encryption.apiserver.operator.openshift.io"

/-- The namespace of the canonical secret and of its mirror,
`GLOBAL_MACHINE_SPECIFIED_CONFIG_NAMESPACE`. -/
def configNamespace : String := "openshift-config-managed"

/-- The stem that both names share, `ENCRYPTION_CONFIG_SECRET_NAME`. -/
def secretStem : String := "encryption-config"

def sourceEnding : String := "openshift-apiserver"

def targetEnding : String := "oauth-apiserver"

/-- The name of the canonical secret with a given stem, `source_secret_name`. -/
def sourceName (stem : String := secretStem) : String := stem ++ "-" ++ sourceEnding

/-- The name of the mirror with a given stem, `target_secret_name`. -/
def targetName (stem : String := secretStem) : String := stem ++ "-" ++ targetEnding

def source : String := sourceName

def target : String := targetName

def secretKind : String := "Secret"

/-- The annotation that says who manages a secret.  It is all by which the operator knows its own
mirror from a secret that somebody else has put in its place. -/
def managedBy : String := apiGroup ++ "/managed-by"

/-- What that annotation says on a secret of this operator. -/
def manager : String := "openshift-apiserver-operator"

/-- The annotation that describes a secret.  It is the only annotation of the canonical secret that
a mirror takes over. -/
def description : String := "kubernetes.io/description"

/-- The finalizer that a mirror is created with, which keeps it from being deleted unnoticed. -/
def finalizer : String := apiGroup ++ "/deletion-protection"

/-- The name under which the API server records the operator's writes. -/
def fieldManager : String := "oauth-encryption-operator"

def controller : String := "OAuthAPIServerEncryptionConfigSyncController"

def createdReason : String := "SecretCreated"

def updatedReason : String := "SecretUpdated"

/-- Whether a secret is the canonical one or its mirror, so that its watch events are handled
(`is_encryption_config_secret`).  A name or a namespace that is no text is that of neither. -/
def isWatched (name space : Value) : Bool :=
  space.text? == some configNamespace &&
    (name.text? == some source || name.text? == some target)

end SecretMirror.Names
