import Tfws.Json.Text
import Tfws.Provider.System

/-! The OpenSSL bridge: keys are looked up by the descriptor and checked against
its digest, and signatures are made and checked by the tool in a scratch directory. -/
namespace Tfws.Provider

open Interference Json

/-- An operation of the bridge: calls of the system, and a value or an error in the
end. -/
abbrev BridgeOperation (α : Type) : Type :=
  Operation SystemCall SystemCall.Answer CoseCryptoError α

/-- `operation_error`, whatever the `io::Error` is. It says nothing of the file. -/
def operationError : CoseCryptoError := .operationFailed "local OpenSSL bridge I/O failed"

/-- `fs::canonicalize`, with the error that a failure stands for at this place of the
source. -/
def canonicalize (path : Path) (error : CoseCryptoError) : BridgeOperation Path := do
  demandSome (← ask (.canonicalize path)) error

/-- `fs::read`, with the error that a failure stands for at this place of the
source. -/
def read (path : Path) (error : CoseCryptoError) : BridgeOperation Bytes := do
  demandSome (← ask (.read path)) error

/-- `fs::write`, after which the file has these contents. If it fails, the operation
ends. -/
def write (path : Path) (contents : Bytes) : BridgeOperation Unit := do
  demand (← ask (.write path contents)) operationError

/-- `Command::output`, which fails where the tool cannot be run at all. -/
def output (program : Path) (command : Pkeyutl) : BridgeOperation Output := do
  demandSome (← ask (.output program command)) operationError

/-- `fs::create_dir`, whose outcome decides whether another name is tried. -/
def createDir (path : Path) : BridgeOperation Created := ask (SystemCall.createDir path)

/-- `set_private_directory_permissions`, which only tells whether it succeeded. -/
def setPrivateDirectoryPermissions (path : Path) : BridgeOperation Bool :=
  ask (SystemCall.setPrivatePermissions path)

/-- `fs::remove_dir_all`, the outcome of which nobody looks at. -/
def removeDirAll (path : Path) : BridgeOperation Unit := ask (SystemCall.removeDirAll path)

/-- The name of a scratch directory, from what tells this attempt from others. It has
no slash, so the directory lies below the root. -/
def scratchName (stamp : Stamp) : Path :=
  let process := stamp.process
  let timestamp := stamp.timestamp
  let sequence := stamp.sequence
  Utf8.encode s!"tfws-openssl-{process}-{timestamp}-{sequence}"

/-- The loop of `ScratchDirectory::new`, which goes on only where the name is taken. A
directory whose permissions cannot be set is removed again. -/
def scratchAttempts (root : Path) : Nat → BridgeOperation Path
  | 0 => throw operationError
  | attempts + 1 => do
      let path := join root (scratchName (← ask .stamp))
      match ← createDir path with
      | .made =>
          match ← setPrivateDirectoryPermissions path with
          | true => pure path
          | false =>
              removeDirAll path
              throw operationError
      | .alreadyExists => scratchAttempts root attempts
      | .failed => throw operationError

/-- `ScratchDirectory::new`, with 64 attempts. The root is made first if it is not
there. -/
def newScratchDirectory (root : Path) : BridgeOperation Path := do
  demand (← ask (.createDirAll root)) operationError
  scratchAttempts root 64

/-- Work in a scratch directory, which is dropped in the end, after an error too. -/
def withScratchDirectory {α : Type} (root : Path) (body : Path → BridgeOperation α) :
    BridgeOperation α := do
  let scratch ← newScratchDirectory root
  andFinally (body scratch) (.removeDirAll scratch)

structure OpenSslProvider where
  openssl : Path
  privateKeyDir : Path
  publicKeyDir : Path
  scratchRoot : Path

/-- The octets of a public key that were checked against a descriptor. Later steps use
these and never read the file again. -/
structure BoundPublicKey where
  bytes : Bytes

def maxKeyIdBytes : Nat := 128

def isKeyIdByte (byte : UInt8) : Bool :=
  (48 ≤ byte && byte ≤ 57) || (65 ≤ byte && byte ≤ 90) || (97 ≤ byte && byte ≤ 122) ||
    byte = 45 || byte = 95

/-- A key identifier that is no plain name. What passes has no slash and no dot, so it
cannot lead out of its directory. -/
def keyIdInvalid (keyId : String) : Bool :=
  keyId.isEmpty || maxKeyIdBytes < (Utf8.encode keyId).length ||
    !(Utf8.encode keyId).all isKeyIdByte

/-- `validate_key_id`, before the identifier becomes part of a path. -/
def validateKeyId (keyId : String) : BridgeOperation Unit :=
  demand (!keyIdInvalid keyId) .keyBindingMismatch

/-- The file of a key below a key directory, by algorithm and key identifier. -/
def keyCandidate (root : Path) (algorithm : CoseAlgorithm) (keyId : String) : Path :=
  join (join root (Utf8.encode algorithm.tfwsIdentifier)) (Utf8.encode s!"{keyId}.pem")

/-- The file of a key. That it is inside its directory is checked on the canonical
paths, at the time of the check; others may change where they lead afterwards. -/
def resolveKeyPath (root : Path) (algorithm : CoseAlgorithm) (keyId : String) (publicKey : Bool) :
    BridgeOperation Path := do
  validateKeyId keyId
  let canonicalRoot ← canonicalize root <|
    if publicKey then .keyBindingMismatch
    else .operationFailed "private key directory is unavailable"
  let canonicalCandidate ← canonicalize (keyCandidate root algorithm keyId) <|
    if publicKey then .keyBindingMismatch else .operationFailed "private key is unavailable"
  demand (startsWith canonicalCandidate canonicalRoot) .keyBindingMismatch
  pure canonicalCandidate

/-- `str::contains`, for a pattern that is a text. -/
def contains (text pattern : String) : Bool := decide (pattern.toList <:+: text.toList)

/-- `lower_hex`, two digits for each octet, which is how a descriptor writes a
digest. -/
def lowerHex (bytes : Bytes) : String :=
  String.ofList (bytes.flatMap fun byte => [hexDigit (byte.toNat / 16), hexDigit (byte.toNat % 16)])

/-- The URI that a descriptor of the algorithm has to have. -/
def publicKeyUri (algorithm : CoseAlgorithm) : String :=
  let identifier := algorithm.tfwsIdentifier
  s!"/.well-known/keys/{identifier}.pem"

/-- The descriptor is not an active release descriptor of the algorithm. Its digest is
not looked at here. -/
def descriptorMismatch (algorithm : CoseAlgorithm) (descriptor : KeyDescriptor) : Bool :=
  descriptor.algorithm ≠ algorithm.tfwsIdentifier || descriptor.keyId.isEmpty ||
    descriptor.status ≠ "active" || descriptor.usage.length ≠ 1 ||
    descriptor.usage[0]? ≠ some "release" || descriptor.publicKeyUri ≠ publicKeyUri algorithm

/-- A text that is no public key, or that is a private one as well. The markers may
stand anywhere in it. -/
def publicKeyTextInvalid (text : String) : Bool :=
  contains text "PRIVATE KEY" || !contains text "PUBLIC KEY"

namespace OpenSslProvider

/-- Where the public key of the algorithm lies. -/
def publicKeyPath (provider : OpenSslProvider) (algorithm : CoseAlgorithm) (keyId : String) :
    BridgeOperation Path :=
  resolveKeyPath provider.publicKeyDir algorithm keyId true

/-- Where the private key of the algorithm lies. -/
def privateKeyPath (provider : OpenSslProvider) (algorithm : CoseAlgorithm) (keyId : String) :
    BridgeOperation Path :=
  resolveKeyPath provider.privateKeyDir algorithm keyId false

/-- Checks the descriptor against the file of the public key and returns the octets
that were checked: these are what verification works with, whatever becomes of the
file. -/
def validatePublicKeyBinding (provider : OpenSslProvider) (sha256 : Bytes → Bytes)
    (algorithm : CoseAlgorithm) (descriptor : KeyDescriptor) : BridgeOperation BoundPublicKey := do
  demand (!descriptorMismatch algorithm descriptor) .keyBindingMismatch
  let publicKey ← provider.publicKeyPath algorithm descriptor.keyId
  let publicKeyBytes ← read publicKey .keyBindingMismatch
  demand (!publicKeyTextInvalid (Utf8.fromUtf8Lossy publicKeyBytes)) .keyBindingMismatch
  demand (lowerHex (sha256 publicKeyBytes) = descriptor.publicKeySha256) .keyBindingMismatch
  pure ⟨publicKeyBytes⟩

/-- Checks that the file of the private key reads as one, and returns its path. The
tool reads the file itself, later. -/
def validatedPrivateKey (provider : OpenSslProvider) (algorithm : CoseAlgorithm) (keyId : String) :
    BridgeOperation Path := do
  let privateKey ← provider.privateKeyPath algorithm keyId
  let octets ← read privateKey (.operationFailed "private key is unavailable")
  let text ← demandSome (Utf8.decode octets) (.operationFailed "private key is unavailable")
  demand (contains text "PRIVATE KEY") (.operationFailed "private key file is invalid")
  pure privateKey

/-- Signs in the scratch directory, and verifies the signature there before
returning it, with the public key that was checked. So a private key of another
pair is noticed. -/
def signBytes (provider : OpenSslProvider) (algorithm : CoseAlgorithm) (privateKey : Path)
    (publicKeyBytes message : Bytes) : BridgeOperation Bytes :=
  withScratchDirectory provider.scratchRoot fun scratch => do
    let messagePath := join scratch (Utf8.encode "message.bin")
    let signaturePath := join scratch (Utf8.encode "signature.bin")
    let publicKeyPath := join scratch (Utf8.encode "public-key.pem")
    write messagePath message
    write publicKeyPath publicKeyBytes
    let signing ← output provider.openssl
      (.sign (externalCommandPath privateKey) (externalCommandPath messagePath)
        (externalCommandPath signaturePath))
    demand signing.success (opensslOperationError "signing" signing [privateKey, scratch])
    let signature ← read signaturePath operationError
    demand (signature.length = algorithm.expectedSignatureLen) .signatureInvalid
    let verification ← output provider.openssl
      (.verify (externalCommandPath publicKeyPath) (externalCommandPath messagePath)
        (externalCommandPath signaturePath))
    demand verification.success .signatureInvalid
    pure signature

/-- Verifies in the scratch directory, with the key in the octets that were checked.
The length of the signature is looked at before any file is written. -/
def verifyBytes (provider : OpenSslProvider) (algorithm : CoseAlgorithm)
    (publicKeyBytes message signature : Bytes) : BridgeOperation Unit := do
  demand (signature.length = algorithm.expectedSignatureLen) .signatureInvalid
  withScratchDirectory provider.scratchRoot fun scratch => do
    let messagePath := join scratch (Utf8.encode "message.bin")
    let signaturePath := join scratch (Utf8.encode "signature.bin")
    let publicKeyPath := join scratch (Utf8.encode "public-key.pem")
    write messagePath message
    write signaturePath signature
    write publicKeyPath publicKeyBytes
    let verification ← output provider.openssl
      (.verify (externalCommandPath publicKeyPath) (externalCommandPath messagePath)
        (externalCommandPath signaturePath))
    demand verification.success .signatureInvalid

/-- `CoseSigner::sign`. The public key is checked although it is not what signs: the
signature is verified under it. -/
def sign (provider : OpenSslProvider) (sha256 : Bytes → Bytes) (algorithm : CoseAlgorithm)
    (descriptor : KeyDescriptor) (message : Bytes) : BridgeOperation Bytes := do
  let publicKey ← provider.validatePublicKeyBinding sha256 algorithm descriptor
  let privateKey ← provider.validatedPrivateKey algorithm descriptor.keyId
  provider.signBytes algorithm privateKey publicKey.bytes message

/-- `CoseVerifier::verify`, which needs the public key alone and asks for no private
one. -/
def verify (provider : OpenSslProvider) (sha256 : Bytes → Bytes) (algorithm : CoseAlgorithm)
    (descriptor : KeyDescriptor) (message signature : Bytes) : BridgeOperation Unit := do
  let publicKey ← provider.validatePublicKeyBinding sha256 algorithm descriptor
  provider.verifyBytes algorithm publicKey.bytes message signature

end OpenSslProvider

end Tfws.Provider
