import DexConnectors.FenceModel
import DexConnectors.FenceOnce
import DexConnectors.FenceSdks
import DexConnectors.FenceProtocol
import DexConnectors.FenceAsyncPython
import DexConnectors.FenceAsyncTypeScript
import DexConnectors.LibJsonValue
import DexConnectors.LibProgram
import DexConnectors.LibMethod
import DexConnectors.LibUtf8
import DexConnectors.LibJsonString
import DexConnectors.LibNumberText
import DexConnectors.LibJson
import DexConnectors.LibJsonNumber
import DexConnectors.LibDecimal
import DexConnectors.LibJsonTree
import DexConnectors.SharedModel
import DexConnectors.SharedSafety
import DexConnectors.SharedServed
import DexConnectors.SharedPythonModel
import DexConnectors.SharedPythonServed
import DexConnectors.SharedTypeScriptModel
import DexConnectors.SharedTypeScriptServed
import DexConnectors.LibObjectStore
import DexConnectors.LibTimestamp
import DexConnectors.HeadHistory
import DexConnectors.ConnectionWire
import DexConnectors.ProviderPythonModel
import DexConnectors.ProviderRuns
import DexConnectors.ProviderPythonOnce
import DexConnectors.ProviderPythonExpiry
import DexConnectors.ProviderTypeScriptModel
import DexConnectors.ProviderExpiry
import DexConnectors.InboxModel
import DexConnectors.InboxSafety
import DexConnectors.WebhookModel
import DexConnectors.WebhookSafety
import DexConnectors.WebhookOrder
import DexConnectors.ConfigModel
import DexConnectors.ConfigHistory
import DexConnectors.ConfigWire
import DexConnectors.ConfigGo
import DexConnectors.ConfigPython
import DexConnectors.ConfigRuns
import DexConnectors.ConfigTypeScript
import DexConnectors.SchemaCompatibility
import DexConnectors.SchemaReleases
import DexConnectors.ManifestModel
import DexConnectors.ManifestPython
import DexConnectors.ManifestRotation
import DexConnectors.LibCivil
import DexConnectors.LibTimeText
import DexConnectors.OperationModel
import DexConnectors.OperationRouting
import DexConnectors.OperationPython
import DexConnectors.OperationWire
import DexConnectors.TextgenSchema
import DexConnectors.TextgenModel
import DexConnectors.TextgenRedaction
import DexConnectors.LocalStoreModel
import DexConnectors.LocalStoreRecovery
import DexConnectors.RelayModel
import DexConnectors.RelayVerified
import DexConnectors.ConnectionGoWire
import DexConnectors.ConnectionGoModel
import DexConnectors.ConnectionGoHead
import DexConnectors.ConnectionGoOnce
import DexConnectors.ConnectionGoAdmission
import DexConnectors.TokenEndpoint
import DexConnectors.LibUnicode
import DexConnectors.LibSha1
import DexConnectors.CallIdentity
import DexConnectors.LibAddress
import DexConnectors.EventStreamModel
import DexConnectors.EventStreamChunks
import DexConnectors.AddressPolicyModel
import DexConnectors.AddressPolicyAgree
import DexConnectors.LibURL
import DexConnectors.EndpointTemplate
import DexConnectors.EndpointTemplateSegments
import DexConnectors.ResponseURL
import DexConnectors.ResponseURLOrigins
import DexConnectors.LibJsonGrammar
import DexConnectors.TextgenAccept
import DexConnectors.NumberModel
import DexConnectors.NumberAgree
import DexConnectors.LibHeap
import DexConnectors.SchemaTransform
import DexConnectors.SchemaInPlace
import DexConnectors.SchemaWeakens
import DexConnectors.LibRecency
import DexConnectors.IssuedRevisions
import DexConnectors.InboxCapacity
import DexConnectors.TimestampInstants
import DexConnectors.SharedStaleness
import DexConnectors.CallReport
import DexConnectors.CallReportSafety
import DexConnectors.MockModel
import DexConnectors.MockReplay
import DexConnectors.MockSafety
import DexConnectors.MockRuns
import DexConnectors.LibSaturate
import DexConnectors.TestMatrix
import DexConnectors.TestMatrixCovers
import DexConnectors.LibSegments
import DexConnectors.ObjectKeys
import DexConnectors.ObjectKeysDistinct
import DexConnectors.DexWebStore
import DexConnectors.DexWebPartition
import DexConnectors.DexWebInbox
import DexConnectors.LibCharacters
import DexConnectors.BranchReason
import DexConnectors.LibPythonJson
import DexConnectors.JwtDepth
import DexConnectors.JwtDepthBounds
import DexConnectors.LibBinary64
import DexConnectors.DurationText
import DexConnectors.DurationGo
import DexConnectors.DurationAgree
import DexConnectors.DurationExact
import DexConnectors.LibRefine
import DexConnectors.S3Model
import DexConnectors.S3Refines
import DexConnectors.S3History
import DexConnectors.EventStreamFrames
import DexConnectors.ChatModel
import DexConnectors.ChatStream
import DexConnectors.ChatAttempt
import DexConnectors.ProviderTypeScriptRounds
import DexConnectors.ProviderReplicas
import DexConnectors.ProviderReplicasOnce
import DexConnectors.ProviderReplicasRuns
import DexConnectors.TriggerTargets
import DexConnectors.TriggerDelivery
