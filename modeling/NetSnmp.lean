import NetSnmp.Agent.AddrCache
import NetSnmp.Agent.AddrHistory
import NetSnmp.Agent.CacheHelper
import NetSnmp.Agent.GetBulk
import NetSnmp.Agent.GetBulkRows
import NetSnmp.Agent.Proxy
import NetSnmp.Agent.ProxyDelegation
import NetSnmp.Agent.ProxyRenaming
import NetSnmp.Agent.RequestQueues
import NetSnmp.Agent.RowMerge
import NetSnmp.Agent.SendTraps
import NetSnmp.Agent.SetConcluded
import NetSnmp.Agent.SetModes
import NetSnmp.Agent.SetOutcome
import NetSnmp.Agent.SetPhases
import NetSnmp.Agent.SetProtocol
import NetSnmp.Agent.SetRuns
import NetSnmp.Agent.SysORTable
import NetSnmp.Agent.TrapConversion
import NetSnmp.Agent.TrapReading
import NetSnmp.AgentIndex.Allocation
import NetSnmp.AgentIndex.IndexOrder
import NetSnmp.AgentIndex.Registry
import NetSnmp.AgentIndex.Runs
import NetSnmp.AgentIndex.Search
import NetSnmp.Agentx.GotResponse
import NetSnmp.Agentx.Master
import NetSnmp.Agentx.PacketLength
import NetSnmp.Agentx.Protocol
import NetSnmp.Agentx.RoundTrip
import NetSnmp.Alarm.Alarms
import NetSnmp.Alarm.Runs
import NetSnmp.Alarm.Schedule
import NetSnmp.Alarm.Steps
import NetSnmp.Alarm.Termination
import NetSnmp.Asn.Accepted
import NetSnmp.Asn.Ber
import NetSnmp.Asn.Build
import NetSnmp.Asn.BuildWrites
import NetSnmp.Asn.CheckPacket
import NetSnmp.Asn.Decode
import NetSnmp.Asn.DecodeObjid
import NetSnmp.Asn.DecodeOpaque
import NetSnmp.Asn.FixedBuffer
import NetSnmp.Asn.IntegerCodec
import NetSnmp.Asn.IntegerOctets
import NetSnmp.Asn.LengthCodec
import NetSnmp.Asn.ObjidCodec
import NetSnmp.Asn.Parse
import NetSnmp.Asn.ParsedRange
import NetSnmp.Asn.RemainingLength
import NetSnmp.Asn.ReverseBuild
import NetSnmp.Asn.ReverseOpaque
import NetSnmp.Asn.ReverseWrites
import NetSnmp.Asn.Types
import NetSnmp.ByteOrder
import NetSnmp.CString
import NetSnmp.Config.CopyWord
import NetSnmp.Config.Line
import NetSnmp.Config.OctetStrings
import NetSnmp.Config.Text
import NetSnmp.Container.Bag
import NetSnmp.Container.BinaryArray
import NetSnmp.Container.BinarySearch
import NetSnmp.Container.Iterator
import NetSnmp.Container.ListContract
import NetSnmp.Container.Removal
import NetSnmp.Container.SinglyLinked
import NetSnmp.Container.Subset
import NetSnmp.Engine.Clock
import NetSnmp.Engine.Restarts
import NetSnmp.Event.Changes
import NetSnmp.Event.ComparedValues
import NetSnmp.Event.Existence
import NetSnmp.Event.Results
import NetSnmp.Event.Threshold
import NetSnmp.Event.ThresholdRuns
import NetSnmp.Event.Trigger
import NetSnmp.Exits
import NetSnmp.Framing
import NetSnmp.Fuel
import NetSnmp.HexText
import NetSnmp.Hysteresis
import NetSnmp.Index.Codec
import NetSnmp.Index.RoundTrip
import NetSnmp.Int64
import NetSnmp.Int64Text
import NetSnmp.KeyedRows
import NetSnmp.LexCompare
import NetSnmp.LinkedList
import NetSnmp.LinkedNodes
import NetSnmp.LinkedRows
import NetSnmp.Machine
import NetSnmp.Mib.HintBounds
import NetSnmp.Mib.HintPieces
import NetSnmp.Mib.HintRoundTrip
import NetSnmp.Mib.HintTermination
import NetSnmp.Mib.OctetHint
import NetSnmp.Mib.PrintBuffer
import NetSnmp.Mib.PrintHint
import NetSnmp.Mib.PrintedNumbers
import NetSnmp.Mib.TextualOid
import NetSnmp.Mib.TextualOidBounds
import NetSnmp.Octets
import NetSnmp.OidCompare
import NetSnmp.OidLoops
import NetSnmp.OidStash.FiniteMap
import NetSnmp.OidStash.GetNext
import NetSnmp.OidStash.Stash
import NetSnmp.OidStash.StashCache
import NetSnmp.Passes
import NetSnmp.Reader.Basic
import NetSnmp.Reader.Discipline
import NetSnmp.Registry.Failure
import NetSnmp.Registry.Register
import NetSnmp.RingList
import NetSnmp.RunningBest
import NetSnmp.Session.PacketHeader
import NetSnmp.Session.RequestList
import NetSnmp.Session.RequestRuns
import NetSnmp.Session.Requests
import NetSnmp.Session.StreamRead
import NetSnmp.ShortestOctets
import NetSnmp.Snmp.Build
import NetSnmp.Snmp.BuildLimits
import NetSnmp.Snmp.BuildWrites
import NetSnmp.Snmp.CachePasses
import NetSnmp.Snmp.ClonePdu
import NetSnmp.Snmp.Decode
import NetSnmp.Snmp.ForwardReverse
import NetSnmp.Snmp.InRange
import NetSnmp.Snmp.InitialPacket
import NetSnmp.Snmp.Message
import NetSnmp.Snmp.MessageBuilds
import NetSnmp.Snmp.Parse
import NetSnmp.Snmp.ReverseBuild
import NetSnmp.Snmp.ReverseWrites
import NetSnmp.Snmp.RoundTrip
import NetSnmp.Snmp.StaysInside
import NetSnmp.Snmp.VarValue
import NetSnmp.Snmp.Vpcache
import NetSnmp.SortedInsert
import NetSnmp.SortedJoin
import NetSnmp.StoreRun
import NetSnmp.Table.ColumnSearch
import NetSnmp.Table.Columns
import NetSnmp.Table.Container
import NetSnmp.Table.Data
import NetSnmp.Table.DataRows
import NetSnmp.Table.Helper
import NetSnmp.Table.Instances
import NetSnmp.Table.Iterator
import NetSnmp.Table.IteratorPasses
import NetSnmp.Table.Requests
import NetSnmp.Table.RowLookup
import NetSnmp.TableWalk
import NetSnmp.TailQueue
import NetSnmp.Timeval
import NetSnmp.Transport.Com2Sec
import NetSnmp.Transport.Com2SecLines
import NetSnmp.Transport.Com2SecParsing
import NetSnmp.Transport.Com2SecRuns
import NetSnmp.Transport.InAddr
import NetSnmp.Usm.EngineRecords
import NetSnmp.Usm.EngineRollover
import NetSnmp.Usm.EngineTime
import NetSnmp.Usm.KeyChange
import NetSnmp.Usm.ReplayProtection
import NetSnmp.Usm.Timeliness
import NetSnmp.Usm.UserIndex
import NetSnmp.Usm.UserList
import NetSnmp.Usm.UserOrder
import NetSnmp.Usm.UserTable
import NetSnmp.Vacm.Access
import NetSnmp.Vacm.AccessOrder
import NetSnmp.Vacm.AccessReload
import NetSnmp.Vacm.AccessStore
import NetSnmp.Vacm.GetExact
import NetSnmp.Vacm.GetNext
import NetSnmp.Vacm.InView
import NetSnmp.Vacm.IndexOid
import NetSnmp.Vacm.IndexOrder
import NetSnmp.Vacm.RowMap
import NetSnmp.Vacm.RowStep
import NetSnmp.Vacm.SetRequest
import NetSnmp.Vacm.SimpleUsm
import NetSnmp.Vacm.SimpleUsmUndo
import NetSnmp.Vacm.SubtreeCheck
import NetSnmp.Vacm.Tables
import NetSnmp.Vacm.Variables
import NetSnmp.Vacm.View
import NetSnmp.Vacm.ViewLookup
import NetSnmp.Vacm.Walk
import NetSnmp.Vacm.WriteMethods
