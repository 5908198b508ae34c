import BattLock.Lib.LittleEndian
import BattLock.Lib.BigEndian
import BattLock.Lib.Ieee
import BattLock.Lib.CArray
import BattLock.Lib.Chunks
import BattLock.Lib.Greedy
import BattLock.Lib.Mealy
import BattLock.Lib.Runs
import BattLock.Lib.Prog
import BattLock.Lib.Python
import BattLock.Lib.Struct
import BattLock.Lib.Der
import BattLock.Lib.Base64
import BattLock.Lib.Json
import BattLock.Lib.Hex
import BattLock.Lib.JsonGrammar
import BattLock.Lib.JsonParser
import BattLock.Lib.JsonRoundTrip
import BattLock.Lib.JsonIndent
import BattLock.Lib.Calendar
import BattLock.Lib.Ordinal
import BattLock.Lib.Pem
import BattLock.Lib.Link
import BattLock.Can.Message
import BattLock.Can.Transport
import BattLock.Can.Proof.Fragment
import BattLock.Can.Proof.Reassemble
import BattLock.Can.Proof.Acceptance
import BattLock.Can.Proof.Bus
import BattLock.Can.Status
import BattLock.Can.StatusCollector
import BattLock.Can.Proof.StatusCodec
import BattLock.Can.Proof.StatusRoundTrip
import BattLock.Can.Proof.StatusCollector
import BattLock.Can.Proof.CollectorState
import BattLock.Can.Proof.Rounds
import BattLock.Crypto.Signatures
import BattLock.Crypto.Counters
import BattLock.Crypto.Certificate
import BattLock.Attacks.CertificateTampering
import BattLock.Crypto.Proof.Binding
import BattLock.Crypto.Proof.Expiry
import BattLock.Crypto.Proof.Lifetime
import BattLock.Crypto.Battery
import BattLock.Crypto.Atecc608
import BattLock.Hardware.Bridge
import BattLock.Hardware.Proof.Bridge
import BattLock.Crypto.Serial
import BattLock.Crypto.Proof.Pairing
import BattLock.Crypto.CryptoApi
import BattLock.Crypto.Proof.RawSignature
import BattLock.Crypto.ApiState
import BattLock.Crypto.Proof.ApiState
import BattLock.Can.Codec
import BattLock.Can.Proof.CertificateCodec
import BattLock.Can.Simulation.VehicleNode
import BattLock.Can.Simulation.BatteryNode
import BattLock.Can.Simulation.Proof.Telemetry
import BattLock.Attacks.MitM
import BattLock.Can.Simulation.Proof.Replay
import BattLock.Can.Simulation.Proof.Delivery
import BattLock.Can.Simulation.Proof.Authentication
import BattLock.Can.Simulation.Proof.Session
import BattLock.Can.Simulation.Proof.Limits
import BattLock.Can.Simulation.Proof.Robustness
import BattLock.Can.Simulation.Proof.Providers
import BattLock.Protocol.StateMachine
import BattLock.Protocol.SessionManager
import BattLock.Protocol.Proof.StateMachine
import BattLock.Integration.Orchestrator
import BattLock.Integration.VerifyFrames
import BattLock.Simulink.VerifyAllModes
import BattLock.Simulink.Proof.Verdicts
import BattLock.Simulink.Proof.Agreement
import BattLock.Integration.Proof.Handshake
import BattLock.Integration.Proof.Identity
import BattLock.Hardware.Protocol
import BattLock.Hardware.Sketch
import BattLock.Hardware.Battery
import BattLock.Hardware.Vehicle
import BattLock.Hardware.Network
import BattLock.Hardware.Proof.Reassembly
import BattLock.Hardware.Proof.SendPayload
import BattLock.Hardware.Proof.Interop
import BattLock.Hardware.Proof.Loss
import BattLock.Hardware.Proof.Certificate
import BattLock.Hardware.Proof.Issued
import BattLock.Hardware.Proof.VehicleStep
import BattLock.Hardware.Proof.Refinement
import BattLock.Hardware.Proof.Authentication
import BattLock.Hardware.Proof.Composition
import BattLock.Hardware.Proof.Status
import BattLock.Hardware.Proof.Sampling
import BattLock.Hardware.Proof.Screening
import BattLock.Crypto.Connection
import BattLock.Crypto.Proof.Commands
import BattLock.Crypto.Proof.Connection
import BattLock.Hardware.Proof.Bounds
import BattLock.Integration.Proof.Runs
import BattLock.Crypto.Remote
import BattLock.Crypto.Proof.Remote
import BattLock.Attacks.Delay
import BattLock.Attacks.Proof.Delay
import BattLock.Attacks.Frames
import BattLock.Attacks.Proof.Frames
import BattLock.Simulation.Nodes
import BattLock.Simulation.Proof.Agreement
import BattLock.Simulation.Proof.Refinement
import BattLock.Provisioning.Provision
import BattLock.Provisioning.Proof.Artifacts
import BattLock.Provisioning.Proof.Directory
import BattLock.Provisioning.Proof.Healthy
import BattLock.Provisioning.CrossCompat
import BattLock.Provisioning.Proof.Compatibility
import BattLock.Simulink.ExtraModes
import BattLock.Simulink.Proof.Tables
import BattLock.Simulink.Proof.ExtraModes
