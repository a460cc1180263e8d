import DialCache.Binary64Integers
import DialCache.DecimalText
import DialCache.UnicodeText
import DialCache.JsValues
import DialCache.RedisFrames
import DialCache.ExpiringKeys
import DialCache.InvalidationScript
import DialCache.WatermarkLaw
import DialCache.InvalidationFence
import DialCache.AsyncPrograms
import DialCache.RuntimeConfig
import DialCache.PayloadEnvelope
import DialCache.CacheKeys
import DialCache.CacheOperations
import DialCache.RedisCache
import DialCache.ShadowValidation
import DialCache.CacheTraversal
import DialCache.CacheRecorder
import DialCache.RedisTraces
import DialCache.RefillFence
import DialCache.ServingGuard
import DialCache.ChainTraces
import DialCache.RunTraces
import DialCache.AgeLaw
import DialCache.PortableKeys
import DialCache.HostKeys
import DialCache.KeyPorts
import DialCache.KeyAgreement
import DialCache.Binary64Rationals
import DialCache.RolloutCohorts
import DialCache.Utf8Replacement
import DialCache.FramePorts
import DialCache.WatermarkParsers
import DialCache.FrameAgreement
import DialCache.EnvelopePorts
import DialCache.EnvelopeAgreement
import DialCache.PolicyOverlays
import DialCache.JsonValues
import DialCache.PolicyPorts
import DialCache.PolicyLeaves
import DialCache.TypeScriptPolicies
import DialCache.MemberPolicies
import DialCache.RustPolicies
import DialCache.GoPolicies
import DialCache.PythonPolicies
import DialCache.PolicyAgreement
import DialCache.LruMaps
import DialCache.LocalStores
import DialCache.Utf8Prefixes
import DialCache.LogClamps
import DialCache.JsonTrees
import DialCache.JsonPointers
import DialCache.JsonDifferences
import DialCache.DifferenceWalks
import DialCache.ShortestDecimals
import DialCache.IntegerArguments
import DialCache.RememberedWalks
import DialCache.SemanticEquality
import DialCache.RustPolicyJson
import DialCache.StaticDefaults
import DialCache.DefaultSnapshots
import DialCache.DeadlineRaces
import DialCache.LoggedPrograms
import DialCache.MismatchLogs
import DialCache.Utf8Repair
import DialCache.JsonGrammar
import DialCache.SurrogateScans
import DialCache.ZstdFrames
import DialCache.FloatArguments
import DialCache.SettledCells
import DialCache.SingleFlights
import DialCache.DeliveryBarriers
import DialCache.JsonReaders
import DialCache.PropertyOrder
import DialCache.PortableJson
import DialCache.PortableTexts
import DialCache.FlightRuns
import DialCache.InstanceRuns
import DialCache.ShadowRuns
import DialCache.RequestScopes
