import InvariantProtocol.StorageNames
import InvariantProtocol.BundleHistory
import InvariantProtocol.Reservations
import InvariantProtocol.ClickHouseDefaults
import InvariantProtocol.GoStdio
import InvariantProtocol.RustStdio
import InvariantProtocol.ArrowAgreement
import InvariantProtocol.ProjectionMeaning
import InvariantProtocol.DescriptorAgreement
import InvariantProtocol.ClientEndpoints
import InvariantProtocol.RequestPartition
import InvariantProtocol.RustErrors
import InvariantProtocol.PythonErrors
import InvariantProtocol.StreamResponse
import InvariantProtocol.ConnectEnvelope
import InvariantProtocol.InboundMetadata
import InvariantProtocol.ServiceRegistration
import InvariantProtocol.PythonValues
import InvariantProtocol.ParquetBridge
import InvariantProtocol.CompilerRecursion
import InvariantProtocol.AbsoluteDeadline
import InvariantProtocol.TypeScriptStreams
import InvariantProtocol.GoRetries
import InvariantProtocol.StreamBudget
import InvariantProtocol.PythonRetries
import InvariantProtocol.ArrowBatches
import InvariantProtocol.ConnectTimeouts
import InvariantProtocol.OpenapiImport
import InvariantProtocol.JsonSchemas
