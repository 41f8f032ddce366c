import Tfws.Data.Ballots
import Tfws.Data.Base64
import Tfws.Data.Behaviour
import Tfws.Data.Bits
import Tfws.Data.Budget
import Tfws.Data.Fallible
import Tfws.Data.HashChain
import Tfws.Data.Interference
import Tfws.Data.Merkle
import Tfws.Data.Redaction
import Tfws.Data.Replacement
import Tfws.Data.SecureHash
import Tfws.Data.SortedMap
import Tfws.Data.Sorting
import Tfws.Data.Traversal
import Tfws.Data.Utf16
import Tfws.Data.Utf8
import Tfws.Data.Utf8Lossy
import Tfws.Data.Whitespace
import Tfws.Cbor.Cut
import Tfws.Cbor.Head
import Tfws.Cbor.Item
import Tfws.Cbor.KeyOrder
import Tfws.Cbor.Survey
import Tfws.Json.Canonical
import Tfws.Json.Locality
import Tfws.Json.Printable
import Tfws.Json.Text
import Tfws.Json.Value
import Tfws.Net.Address
import Tfws.Crates.EncodedLength
import Tfws.Crates.Minicbor
import Tfws.Crates.MinicborErrors
import Tfws.Crates.MinicborModel
import Tfws.Crates.SerdeJcs
import Tfws.Crates.SerdeJson
import Tfws.Crates.SerdeJsonText
import Tfws.Core.CanonicalBytes
import Tfws.Core.Cbor
import Tfws.Core.CborDecoding
import Tfws.Core.CborEncoding
import Tfws.Core.CborManifest
import Tfws.Core.CborStructure
import Tfws.Core.Cose
import Tfws.Core.CoseEncoding
import Tfws.Core.CoseErrors
import Tfws.Core.CoseParsing
import Tfws.Core.CoseVerification
import Tfws.Core.CratesModel
import Tfws.Core.DataModel
import Tfws.Core.Document
import Tfws.Core.DocumentLength
import Tfws.Core.Limits
import Tfws.Core.Manifest
import Tfws.Core.Policy
import Tfws.Core.PrefixFree
import Tfws.Core.SignatureMessage
import Tfws.Core.TextKeys
import Tfws.Core.Truncation
import Tfws.Core.VerifierCalls
import Tfws.Sdk.Shape
import Tfws.Cli.Arguments
import Tfws.Cli.ConformanceFixture
import Tfws.Cli.FormatPolicy
import Tfws.Cli.Program
import Tfws.Cli.Sha256
import Tfws.Cli.Sha256Numbers
import Tfws.Cli.Validation
import Tfws.Wasm.Boundary
import Tfws.Provider.Diagnostic
import Tfws.Provider.OpenSsl
import Tfws.Provider.SignatureBinding
import Tfws.Provider.System
import Tfws.Formal.KeyLifecycle
import Tfws.Python.AbstractValue
import Tfws.Python.BindKeys
import Tfws.Python.Canonical
import Tfws.Python.CanonicalDecoding
import Tfws.Python.Crypto
import Tfws.Python.DecoderExceptions
import Tfws.Python.EventAppend
import Tfws.Python.EventChain
import Tfws.Python.EventLog
import Tfws.Python.EventRuns
import Tfws.Python.Exceptions
import Tfws.Python.HybridSoundness
import Tfws.Python.Jcs
import Tfws.Python.Json
import Tfws.Python.JsonReading
import Tfws.Python.JsonValue
import Tfws.Python.KeyBinding
import Tfws.Python.LogCommands
import Tfws.Python.MerkleRoot
import Tfws.Python.Models
import Tfws.Python.NetPolicy
import Tfws.Python.Object
import Tfws.Python.Recovery
import Tfws.Python.RuntimeModel
import Tfws.Python.SignVerify
import Tfws.Python.SignatureBundle
import Tfws.Python.TamperEvidence
import Tfws.Python.Transparency
import Tfws.Vectors.Codec
import Tfws.Vectors.CodecExact
import Tfws.Vectors.Corpus
import Tfws.Vectors.Decoding
import Tfws.Vectors.Encoding
import Tfws.Vectors.Envelopes
import Tfws.Vectors.Lookups
import Tfws.Vectors.Manifests
import Tfws.Vectors.Mutations
import Tfws.Vectors.NegativeVectors
import Tfws.Vectors.Profile
import Tfws.Vectors.RoundTrip
import Tfws.Vectors.SelfTest
import Tfws.Vectors.SignVerify
import Tfws.Vectors.Values
import Tfws.Agreement.CanonicalBytes
import Tfws.Agreement.Conformance
import Tfws.Agreement.Defects
import Tfws.Agreement.Demands
import Tfws.Agreement.Draft
import Tfws.Agreement.Envelope
import Tfws.Agreement.ErrorCategories
import Tfws.Agreement.FailClosed
import Tfws.Agreement.Headers
import Tfws.Agreement.Manifest
import Tfws.Agreement.PythonDefects
import Tfws.Agreement.PythonObjects
import Tfws.Agreement.PythonPolicy
import Tfws.Agreement.RustDefects
import Tfws.Agreement.SignedMessages
import Tfws.Agreement.Structure
import Tfws.Agreement.VectorCorpus
import Tfws.Agreement.VectorDocuments
import Tfws.Agreement.VectorEnvelopes
import Tfws.Agreement.VectorManifests
import Tfws.Agreement.VectorVerifiers
