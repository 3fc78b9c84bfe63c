import Alisl.Base.Machine
import Alisl.Base.Baton
import Alisl.Base.Bytes
import Alisl.Base.Cut
import Alisl.Base.Bitmap
import Alisl.Base.Assembly
import Alisl.Base.Circular
import Alisl.Base.Client
import Alisl.Base.Ring
import Alisl.Base.Flag
import Alisl.Base.Blocks
import Alisl.Base.BitArray
import Alisl.Base.DoWhile
import Alisl.Upgrade.Tune
import Alisl.Upgrade.Writter
import Alisl.Upgrade.Handoff.Model
import Alisl.Upgrade.Handoff.Order
import Alisl.Upgrade.Crc
import Alisl.Upgrade.PieceRead.Model
import Alisl.Upgrade.PieceRead.Failure
import Alisl.Upgrade.PieceRead.Stream
import Alisl.Upgrade.ModuleLayout
import Alisl.Upgrade.LayoutRace
import Alisl.Upgrade.PackTool
import Alisl.Upgrade.PieceAgreement
import Alisl.Upgrade.Sections
import Alisl.Upgrade.Dbc
import Alisl.Upgrade.LibOta
import Alisl.Upgrade.RoundTrip.Dsi
import Alisl.Upgrade.RoundTrip.Dii
import Alisl.Upgrade.RoundTrip.Ddb
import Alisl.Upgrade.Carousel
import Alisl.Upgrade.Reassembly
import Alisl.Upgrade.Net.Cache
import Alisl.Upgrade.Runs
import Alisl.Upgrade.Source.Loops
import Alisl.Upgrade.Source.Plan
import Alisl.Upgrade.Source.Services
import Alisl.Upgrade.Source.Media
import Alisl.Upgrade.Source.Agree
import Alisl.Upgrade.PackImages
import Alisl.Upgrade.Config
import Alisl.Dmx.Device
import Alisl.Dmx.Pool
import Alisl.Dmx.Calls
import Alisl.Dmx.Dispatch
import Alisl.Dmx.Windows
import Alisl.Dmx.Delivery
import Alisl.Dmx.Frees
import Alisl.Dmx.Cursor
import Alisl.Dmx.SectionFlag
import Alisl.Dmx.Playfeed.Model
import Alisl.Dmx.Playfeed.Handshake
import Alisl.Dmx.Playfeed.Quiet
import Alisl.Dmx.Service
import Alisl.Dmx.Record
import Alisl.Event.Loop
import Alisl.Storage.MtdTable
import Alisl.Storage.MtdHandles
import Alisl.Storage.Flash
import Alisl.Storage.Transfer
import Alisl.Storage.WriteBack
import Alisl.Storage.ReadBack
import Alisl.Storage.LogicalFile
import Alisl.Dmx.Matching
import Alisl.Storage.AddressMap
import Alisl.Storage.SeekLaw
import Alisl.Storage.NoErase
import Alisl.Storage.Erase
import Alisl.Storage.Sysinfo
import Alisl.Base.Distinct
import Alisl.Dmx.PidList
import Alisl.Storage.MtdName
import Alisl.Dmx.WholeDispatch
import Alisl.Event.Batch
import Alisl.Event.Removal
import Alisl.Upgrade.TsStream
import Alisl.Upgrade.SelfConsistent
import Alisl.Upgrade.DdbStream
import Alisl.Upgrade.PieceLayout
import Alisl.Base.Reading
import Alisl.Upgrade.DbcFormat
import Alisl.Upgrade.DbcReads
import Alisl.Upgrade.DbcBounds
import Alisl.Upgrade.DiiRecords
import Alisl.Upgrade.DbcRejects
import Alisl.Dmx.FilterAttr
import Alisl.Dmx.ChannelRead
import Alisl.Dmx.Playfeed.Stream
import Alisl.Upgrade.CrcTable
import Alisl.Upgrade.DbcPointer
import Alisl.Base.Cells
import Alisl.Base.Forest
import Alisl.Cli.Command
import Alisl.Cli.Menu
import Alisl.Cli.Find
import Alisl.Base.Abbrev
import Alisl.Base.Siblings
import Alisl.Cli.Abbreviation
import Alisl.Cli.Session
import Alisl.Upgrade.TableInsert
import Alisl.Upgrade.ConfigBuffer
import Alisl.Upgrade.Net.Stream
import Alisl.Storage.StoDevice
import Alisl.Storage.StoStore
import Alisl.Storage.LockRw
import Alisl.Base.Register
import Alisl.Dmx.Damage
import Alisl.Storage.Pmi
import Alisl.Upgrade.UpdatePmi
import Alisl.Upgrade.ConfigV1
import Alisl.Cli.ParseLine
import Alisl.Cli.Completions
import Alisl.Upgrade.Burn
import Alisl.Upgrade.Net.ConfigFile
import Alisl.Base.Heap
import Alisl.Storage.Lifetime
