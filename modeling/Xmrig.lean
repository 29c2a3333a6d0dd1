import Xmrig.Backend.BenchExhausted
import Xmrig.Backend.BenchNonces
import Xmrig.Backend.BenchRounds
import Xmrig.Backend.BenchRun
import Xmrig.Backend.BenchSum
import Xmrig.Backend.CpuChecks
import Xmrig.Backend.CpuConfig
import Xmrig.Backend.CpuGenerated
import Xmrig.Backend.CpuProfiles
import Xmrig.Backend.CpuResults
import Xmrig.Backend.CpuThreads
import Xmrig.Backend.CpuWorker
import Xmrig.Backend.GpuWorker
import Xmrig.Backend.Hashrate
import Xmrig.Backend.HashrateInterpolator
import Xmrig.Backend.HeavyMemory
import Xmrig.Backend.KawpowNonces
import Xmrig.Backend.NonceCoherence
import Xmrig.Backend.WorkerJob
import Xmrig.Backend.WorkerRounds
import Xmrig.Base.Coin
import Xmrig.Base.Cvt
import Xmrig.Base.Env
import Xmrig.Base.HexCodec
import Xmrig.Base.Job
import Xmrig.Base.JobBlob
import Xmrig.Base.Json
import Xmrig.Base.Names
import Xmrig.Base.StringOrder
import Xmrig.Core.Background
import Xmrig.Core.Config
import Xmrig.Core.Crew
import Xmrig.Core.DonationTurns
import Xmrig.Core.Miner
import Xmrig.Core.MinerPause
import Xmrig.Core.SavedParts
import Xmrig.Core.SystemMonitor
import Xmrig.Core.WebConfig
import Xmrig.Crypto.FastMod
import Xmrig.Crypto.Kawpow
import Xmrig.Crypto.Nonce
import Xmrig.Crypto.NonceCallers
import Xmrig.Crypto.RxQueue
import Xmrig.Crypto.VirtualMemory
import Xmrig.Cryptonight.AsmSqrt
import Xmrig.Cryptonight.HalfMemory
import Xmrig.Cryptonight.IntSqrt
import Xmrig.Cryptonight.Scratchpad
import Xmrig.Cryptonight.Vaes
import Xmrig.CryptonightR.Compiler
import Xmrig.CryptonightR.GeneratorBounds
import Xmrig.CryptonightR.RandomMath
import Xmrig.Cryptonote.AddressFields
import Xmrig.Cryptonote.AddressValidity
import Xmrig.Cryptonote.BlobReader
import Xmrig.Cryptonote.BlockTemplate
import Xmrig.Cryptonote.HashingBlob
import Xmrig.Cryptonote.MerkleBranch
import Xmrig.Cryptonote.Signatures
import Xmrig.Cryptonote.TemplateBounds
import Xmrig.Cryptonote.TemplateHeader
import Xmrig.Cryptonote.TemplateOffsets
import Xmrig.Cryptonote.TemplateReuse
import Xmrig.Cryptonote.TemplateStages
import Xmrig.Cryptonote.Varint
import Xmrig.Cryptonote.WalletAddress
import Xmrig.Foundation.Binary64
import Xmrig.Foundation.Block
import Xmrig.Foundation.ByteReader
import Xmrig.Foundation.Ceilings
import Xmrig.Foundation.ConstantDivision
import Xmrig.Foundation.Faults
import Xmrig.Foundation.ForkJoin
import Xmrig.Foundation.Interaction
import Xmrig.Foundation.JsonText
import Xmrig.Foundation.Lines
import Xmrig.Foundation.Locks
import Xmrig.Foundation.MachineCode
import Xmrig.Foundation.MachineRun
import Xmrig.Foundation.Memory
import Xmrig.Foundation.MerkleTree
import Xmrig.Foundation.Numerals
import Xmrig.Foundation.OrderedMap
import Xmrig.Foundation.Outcomes
import Xmrig.Foundation.Pieces
import Xmrig.Foundation.Radix
import Xmrig.Foundation.Replacing
import Xmrig.Foundation.RingCells
import Xmrig.Foundation.Run
import Xmrig.Foundation.Slices
import Xmrig.Foundation.SquareRoot
import Xmrig.Foundation.StringTable
import Xmrig.Foundation.Sweep
import Xmrig.Foundation.Total
import Xmrig.Foundation.TwoRuns
import Xmrig.Foundation.Varint
import Xmrig.Foundation.Vex
import Xmrig.Foundation.WideMul
import Xmrig.Foundation.Writes
import Xmrig.Foundation.X86
import Xmrig.GhostRider.HashOcta
import Xmrig.GhostRider.Octa
import Xmrig.Hw.DmiReader
import Xmrig.Hw.DmiStrings
import Xmrig.Hw.DmiTools
import Xmrig.Hw.MsrItem
import Xmrig.Net.Dns
import Xmrig.Net.HttpContext
import Xmrig.Net.JobDifficulty
import Xmrig.Net.JobResults
import Xmrig.Net.LineReader
import Xmrig.Net.ResultHandoff
import Xmrig.RandomX.AesHash
import Xmrig.RandomX.Bytecode
import Xmrig.RandomX.CalculateHash
import Xmrig.RandomX.Dataset
import Xmrig.RandomX.GeneratorSafety
import Xmrig.RandomX.Instruction
import Xmrig.RandomX.InstructionsPortable
import Xmrig.RandomX.JitCode
import Xmrig.RandomX.JitControl
import Xmrig.RandomX.JitDecode
import Xmrig.RandomX.JitLayout
import Xmrig.RandomX.JitRelated
import Xmrig.RandomX.JitRounding
import Xmrig.RandomX.JitRun
import Xmrig.RandomX.JitSimulation
import Xmrig.RandomX.OpcodeTable
import Xmrig.RandomX.Reciprocal
import Xmrig.RandomX.RxConfig
import Xmrig.RandomX.RxDataset
import Xmrig.RandomX.Superscalar
import Xmrig.RandomX.SuperscalarGenerator
import Xmrig.RandomX.Termination
import Xmrig.RandomX.VmInterpreted
import Xmrig.RandomX.VmPool
import Xmrig.Stratum.AutoClient
import Xmrig.Stratum.BaseClient
import Xmrig.Stratum.Client
import Xmrig.Stratum.ClientAuthorized
import Xmrig.Stratum.ClientCallbacks
import Xmrig.Stratum.ClientDisconnect
import Xmrig.Stratum.ClientErrors
import Xmrig.Stratum.ClientSend
import Xmrig.Stratum.ClientShares
import Xmrig.Stratum.ClientSockets
import Xmrig.Stratum.DaemonClient
import Xmrig.Stratum.DaemonDisconnect
import Xmrig.Stratum.DaemonJob
import Xmrig.Stratum.DaemonTemplate
import Xmrig.Stratum.DaemonZmq
import Xmrig.Stratum.EthEffects
import Xmrig.Stratum.EthNotification
import Xmrig.Stratum.EthStratumClient
import Xmrig.Stratum.EthSubmit
import Xmrig.Stratum.FailoverStrategy
import Xmrig.Stratum.JobTarget
import Xmrig.Stratum.KawpowJob
import Xmrig.Stratum.Pool
import Xmrig.Stratum.PoolChanges
import Xmrig.Stratum.Pools
import Xmrig.Stratum.SelfSelectClient
import Xmrig.Stratum.SelfSelectOrigin
import Xmrig.Stratum.Socks5
import Xmrig.Stratum.Url
import Xmrig.Stratum.UrlParse
import Xmrig.Stratum.ZmqStream
import Xmrig.Cryptonight.MainLoop
import Xmrig.Cryptonight.MultiLane
import Xmrig.Cryptonight.Reference
import Xmrig.Foundation.InTurn
