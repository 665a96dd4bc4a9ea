import DigitalTwin.ContentAddress
import DigitalTwin.Assembly
import DigitalTwin.Builder
import DigitalTwin.AssemblyDigest
import DigitalTwin.Snapshot
import DigitalTwin.Graph
import DigitalTwin.Engine
import DigitalTwin.ForestHash
import DigitalTwin.TxMutex
import DigitalTwin.Sweep
import DigitalTwin.EngineTest
import DigitalTwin.Run
import DigitalTwin.World
import DigitalTwin.Interleave
import DigitalTwin.AttributeMap
import DigitalTwin.Assert
import DigitalTwin.GoValue
import DigitalTwin.Reflect
import DigitalTwin.ContentAddressText
import DigitalTwin.Compilation
import DigitalTwin.Disassembler
import DigitalTwin.EventSource
import DigitalTwin.GraphHash
import DigitalTwin.Walk
import DigitalTwin.NodeRegistry
import DigitalTwin.VisibleFields
import DigitalTwin.PermRel
import DigitalTwin.Reorder
import DigitalTwin.FieldOrder
import DigitalTwin.StoredNode
