import Orkhestra.Verified.Checked
import Orkhestra.Verified.DefinedBehaviour
import Orkhestra.Verified.Loop
import Orkhestra.Verified.Occurrence
import Orkhestra.Verified.Lane
import Orkhestra.Verified.LaneMachine
import Orkhestra.Verified.Ownership
import Orkhestra.Verified.OwnException
import Orkhestra.Verified.UniquePointer
import Orkhestra.Verified.VectorMap
import Orkhestra.Verified.BitMask
import Orkhestra.Verified.LiteralTable
import Orkhestra.Verified.Rows
import Orkhestra.Verified.Pieces
import Orkhestra.Verified.SwitchStage
import Orkhestra.Verified.Choices
import Orkhestra.Verified.Log
import Orkhestra.Verified.RegisterMap
import Orkhestra.Verified.WriteTrace
import Orkhestra.Verified.Digits
import Orkhestra.Verified.ByteWords
import Orkhestra.Ports.StreamParameterCalculator
import Orkhestra.Ports.DMACrossbarSpecifier
import Orkhestra.Ports.DMACrossbarSetup
import Orkhestra.Ports.InputCrossbar
import Orkhestra.Ports.OutputCrossbar
import Orkhestra.Ports.MergeSortSetup
import Orkhestra.Ports.QuerySchedulingData
import Orkhestra.Ports.DMA
import Orkhestra.Ports.DMASetup
import Orkhestra.Ports.TypesConverter
import Orkhestra.Ports.CSVReader
import Orkhestra.Ports.TableLoaders
import Orkhestra.Ports.ModuleDrivers
import Orkhestra.Ports.FilterModule
import Orkhestra.Ports.FilterSetup
import Orkhestra.Ports.FilterClauses
import Orkhestra.Ports.DMABurst
import Orkhestra.Ports.DMADomain
import Orkhestra.Ports.NodeScheduler
import Orkhestra.Ports.SchedulePartition
import Orkhestra.Ports.ModulePlacement
import Orkhestra.Ports.IntermediateStreams
import Orkhestra.Ports.ScheduleLinks
import Orkhestra.Ports.HandOver
import Orkhestra.Ports.ScheduledRuns
import Orkhestra.Ports.IDManager
import Orkhestra.Ports.QueryManager
import Orkhestra.Ports.ActiveStreams
import Orkhestra.Ports.RunSetup
import Orkhestra.Ports.StreamLanes
import Orkhestra.Ports.MemoryRelease
import Orkhestra.Ports.PortVectors
import Orkhestra.Ports.MemoryConservation
import Orkhestra.Ports.FirstInputs
import Orkhestra.Ports.ParallelEdges
import Orkhestra.Ports.ElasticModuleChecker
import Orkhestra.Ports.MergeSortChannels
import Orkhestra.Ports.ChannelAddresses
import Orkhestra.Ports.ExecutionOrder
import Orkhestra.Ports.StoredExecution
import Orkhestra.Ports.CoreRun
import Orkhestra.Ports.StreamDraws
import Orkhestra.Ports.MergeSortStream
import Orkhestra.Ports.ClashChecks
import Orkhestra.Ports.SpecificationFits
import Orkhestra.Ports.GreedyRuns
import Orkhestra.Ports.ConfigCreator
import Orkhestra.Ports.ModuleSearch
import Orkhestra.Ports.MinimumPosition
import Orkhestra.Ports.SchedulablePlans
import Orkhestra.Ports.NegativeLiterals
import Orkhestra.Ports.CompareTypes
import Orkhestra.Ports.CrossbarEntries
import Orkhestra.Ports.DMARegisters
import Orkhestra.Ports.TableBounds
import Orkhestra.Ports.SizePropagation
import Orkhestra.Ports.SetUpAccesses
import Orkhestra.Ports.KeptApart
import Orkhestra.Ports.DataToString
import Orkhestra.Ports.TableSegmentation
import Orkhestra.Ports.NumberTexts
import Orkhestra.Ports.VarcharEncoding
import Orkhestra.Ports.VarcharRoundTrip
import Orkhestra.Ports.RowTexts
import Orkhestra.Ports.JoinSetup
import Orkhestra.Ports.FetchAgreement
import Orkhestra.Ports.FilterBounds
import Orkhestra.Ports.GraphCreator
import Orkhestra.Ports.GraphLinks
import Orkhestra.Ports.ReadBack
import Orkhestra.Ports.ModuleSwitch
import Orkhestra.Ports.ModuleWindows
import Orkhestra.Ports.DeliveredColumns
import Orkhestra.Ports.FilterDecision
import Orkhestra.Ports.FilteredColumns
import Orkhestra.Ports.JoinedRecord
import Orkhestra.Ports.TableManager
import Orkhestra.Ports.Accelerator
import Orkhestra.Ports.DataPath
import Orkhestra.Ports.PlanMeaning
import Orkhestra.Ports.PreparedRun
import Orkhestra.Ports.ScheduledPorts
import Orkhestra.Ports.RunLanes
import Orkhestra.Ports.AcceleratedRun
import Orkhestra.Ports.AcceleratedSetup
import Orkhestra.Ports.ResultFiles
import Orkhestra.Ports.PlanExecution
import Orkhestra.Ports.TableRoundTrip
import Orkhestra.Ports.FileHandOver
