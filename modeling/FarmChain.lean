import FarmChain.Lib.Run
import FarmChain.Lib.Threads
import FarmChain.Lib.Polling
import FarmChain.Lib.WriteSet
import FarmChain.Lib.Strings
import FarmChain.Lib.Bytes
import FarmChain.Lib.Crc
import FarmChain.Lib.Fallible
import FarmChain.Lib.Base64
import FarmChain.Lib.Dict
import FarmChain.Lib.Crt
import FarmChain.Lib.TimedMap
import FarmChain.Lib.SlidingWindow
import FarmChain.Lib.Temporal
import FarmChain.Lib.Script
import FarmChain.Lib.Endian
import FarmChain.Lib.Table
import FarmChain.Chaincode.Roles
import FarmChain.Chaincode.Keys
import FarmChain.Chaincode.Records
import FarmChain.Chaincode.Stub
import FarmChain.Chaincode.Zones
import FarmChain.Chaincode.Identity
import FarmChain.Chaincode.Temporal
import FarmChain.Chaincode.Nonces
import FarmChain.Chaincode.Audit
import FarmChain.Chaincode.Contract
import FarmChain.Chaincode.Effects
import FarmChain.Chaincode.History
import FarmChain.Chaincode.Access
import FarmChain.Chaincode.Guards
import FarmChain.Chaincode.Revocation
import FarmChain.Chaincode.Escalation
import FarmChain.Chaincode.AuditLog
import FarmChain.Chaincode.KeySearch
import FarmChain.Chaincode.Denials
import FarmChain.Chaincode.Attributes
import FarmChain.Chaincode.Endorsement
import FarmChain.Chaincode.NonceSpaces
import FarmChain.Chaincode.Pruning
import FarmChain.Chaincode.Tokens
import FarmChain.Chaincode.TokenIds
import FarmChain.Chaincode.SensorData
import FarmChain.Chaincode.WellFormed
import FarmChain.Chaincode.Renewal
import FarmChain.Chaincode.Expiry
import FarmChain.Chaincode.Influence
import FarmChain.Model.AccessControl
import FarmChain.Model.AccessMachine
import FarmChain.Model.AccessLog
import FarmChain.Chaincode.Refinement
import FarmChain.Chaincode.Registry
import FarmChain.Chaincode.Representation
import FarmChain.Chaincode.RegistryRefinement
import FarmChain.Chaincode.Footprints
import FarmChain.Chaincode.Reordering
import FarmChain.Chaincode.Encodings
import FarmChain.Firmware.Encode
import FarmChain.Firmware.Sensor
import FarmChain.Firmware.OneWireBus
import FarmChain.Firmware.OneWireLine
import FarmChain.Firmware.Decode
import FarmChain.Firmware.Signing
import FarmChain.Firmware.CertStore
import FarmChain.Firmware.CertAccess
import FarmChain.Firmware.WakeCycle
import FarmChain.Firmware.LoraTx
import FarmChain.Firmware.LoraConfig
import FarmChain.Firmware.Emission
import FarmChain.Gateway.Assembly
import FarmChain.Gateway.Reassembly
import FarmChain.Gateway.Malformed
import FarmChain.Gateway.Transmissions
import FarmChain.Gateway.Loop
import FarmChain.Gateway.Submission
import FarmChain.Gateway.FabricClient
import FarmChain.Gateway.TimedCache
import FarmChain.Gateway.CacheOrder
import FarmChain.Gateway.Handle
import FarmChain.Gateway.Loops
import FarmChain.Gateway.Staleness
import FarmChain.Gateway.Verify
import FarmChain.Gateway.Forgery
import FarmChain.Gateway.Binding
import FarmChain.Gateway.Enrollment
import FarmChain.Gateway.EnrollmentServer
import FarmChain.Gateway.EnrollmentRecords
import FarmChain.Telemetry.Recovery
import FarmChain.Telemetry.Signatures
import FarmChain.Telemetry.Decoders
import FarmChain.Telemetry.Packing
import FarmChain.Telemetry.Saturation
import FarmChain.Provisioning.FlashPackage
import FarmChain.Provisioning.Package
